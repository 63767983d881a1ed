import Mathlib.Algebra.BigOperators.Group.List.Basic
import Mathlib.Data.List.Nodup
import Mathlib.Logic.Relation
import IntegrityGuardian.AgentsApi.Journal

/-!
# Operations run at most once, within the budget

Every step of a process is a chain of the effects listed in `Effect`; each of
them keeps the journal consistent with its history.
-/

namespace IntegrityGuardian.AgentsApi

open Python Library

/-! ## Histories -/

/-- The outputs stored for a key. -/
def storedOutputs (history : List Event) (key : Str) : List Bytes :=
  history.filterMap fun
    | .stored key' output => if key' = key then some output else none
    | _ => none

/-- The claimed operations with what each reserved. -/
def reservations (history : List Event) : List (Str × Int) :=
  history.filterMap fun
    | .claimed key reserveMicrousd => some (key, reserveMicrousd)
    | _ => none

theorem storedOutputs_append (history more : List Event) (key : Str) :
    storedOutputs (history ++ more) key = storedOutputs history key ++ storedOutputs more key :=
  List.filterMap_append

theorem storedOutputs_stored (history : List Event) (key key' : Str) (output : Bytes) :
    storedOutputs (history ++ [.stored key' output]) key
      = storedOutputs history key ++ if key' = key then [output] else [] := by
  rw [storedOutputs_append]
  by_cases h : key' = key
  · simp [storedOutputs, h]
  · simp [storedOutputs, h]

/-- The keys of the rows. -/
def Database.keys (db : Database) : List Str := db.operations.map Operation.key

variable {db : Database} {running : List Running} {index : Nat} {op : Operation}
  {change : Operation → Operation} {phase : Phase} {call : Running} {key : Str}

theorem find_eq_none : db.find key = none ↔ key ∉ db.keys := by
  unfold Database.find Database.keys
  rw [List.find?_eq_none, List.mem_map]
  constructor
  · rintro h ⟨op, hop, rfl⟩
    exact h op hop (by simp)
  · intro h op hop heq
    exact h ⟨op, hop, by simpa using heq⟩

theorem mem_of_find (h : db.find key = some op) : op ∈ db.operations ∧ op.key = key := by
  unfold Database.find at h
  exact ⟨List.mem_of_find?_eq_some h, by simpa using List.find?_some h⟩

theorem keys_update (db : Database) (key : Str)
    (h : ∀ op, (change op).key = op.key) : (db.update key change).keys = db.keys := by
  unfold Database.keys Database.update
  rw [List.map_map]
  apply List.map_congr_left
  intro op _
  by_cases hkey : op.key = key
  · simp [hkey, h]
  · simp [hkey]

theorem mem_update (h : op ∈ (db.update key change).operations) :
    ∃ old ∈ db.operations, old.key = key ∧ op = change old ∨ old.key ≠ key ∧ op = old := by
  obtain ⟨old, hold, rfl⟩ := List.mem_map.1 h
  by_cases hkey : old.key = key
  · exact ⟨old, hold, Or.inl ⟨hkey, if_pos hkey⟩⟩
  · exact ⟨old, hold, Or.inr ⟨hkey, if_neg hkey⟩⟩

theorem identifier_eq_ok {value result : Str} (h : identifier value = .ok result) :
    result = value := by
  unfold identifier at h
  obtain ⟨-, h⟩ := ensure_bind_eq_ok.1 h
  obtain ⟨-, h⟩ := ensure_bind_eq_ok.1 h
  cases h
  rfl

theorem number_eq_ok {value low high result : Int} (h : number value low high = .ok result) :
    low ≤ value ∧ result = value := by
  unfold number at h
  obtain ⟨hrange, h⟩ := ensure_bind_eq_ok.1 h
  cases h
  exact ⟨hrange.1, rfl⟩

/-! ## Effects -/

/-- What may happen to a row: a claimed one is settled, once. -/
def Operation.Moves (op op' : Operation) : Prop :=
  op'.key = op.key ∧ op'.binding = op.binding ∧
    (op' = op ∨ op.state = .claimed ∧ (op'.state = .done ∨ op'.state = .unknown))

theorem Operation.Moves.trans {a b c : Operation} (hab : a.Moves b) (hbc : b.Moves c) :
    a.Moves c := by
  obtain ⟨hkey, hbinding, hab⟩ := hab
  obtain ⟨hkey', hbinding', hbc⟩ := hbc
  refine ⟨hkey'.trans hkey, hbinding'.trans hbinding, ?_⟩
  rcases hbc with rfl | ⟨hclaimed, hsettled⟩
  · exact hab
  · rcases hab with rfl | ⟨hclaimed', -⟩
    · exact Or.inr ⟨hclaimed, hsettled⟩
    · exact Or.inr ⟨hclaimed', hsettled⟩

/-- A claimed row with its result. -/
def Operation.settle (op : Operation) (binding : Str) (output : Bytes) : Operation :=
  if op.binding = binding ∧ op.state = .claimed then
    { op with state := .done, output := some output, outputSha256 := some (sha256Digest output) }
  else op

def Operation.giveUp (op : Operation) : Operation :=
  if op.state = .claimed then { op with state := .unknown } else op

theorem Operation.moves_settle (op : Operation) (binding : Str) (output : Bytes) :
    op.Moves (op.settle binding output) := by
  unfold Operation.settle
  split_ifs with h
  · exact ⟨rfl, rfl, Or.inr ⟨h.2, Or.inl rfl⟩⟩
  · exact ⟨rfl, rfl, Or.inl rfl⟩

theorem Operation.moves_giveUp (op : Operation) : op.Moves op.giveUp := by
  unfold Operation.giveUp
  split_ifs with h
  · exact ⟨rfl, rfl, Or.inr ⟨h, Or.inr rfl⟩⟩
  · exact ⟨rfl, rfl, Or.inl rfl⟩

/-- The calls that are left: none is new, and none is back before its effect. -/
def Remains (running running' : List Running) : Prop :=
  (running'.map Running.operation).Sublist (running.map Running.operation) ∧
    ∀ call ∈ running', call.phase = .claimed → call ∈ running

/-- What the steps of a process are made of. -/
inductive Effect (s : System) : System → Prop
  | moved (running : List Running) (h : Remains s.running running) :
      Effect s { s with running }
  | claimed (operation binding : Str) (reserveMicrousd : Int) (usageScope : Str)
      (metadata : Metadata) (hnew : operation ∉ s.db.keys) (hlow : 0 ≤ reserveMicrousd)
      (hreserve : s.db.metadata.reserve reserveMicrousd usageScope = .ok metadata) :
      Effect s ⟨⟨metadata, s.db.operations ++ [⟨operation, binding, .claimed, none, none⟩]⟩,
        s.running ++ [⟨operation, binding, .claimed⟩],
        s.history ++ [.claimed operation reserveMicrousd]⟩
  | executed (call : Running) (running : List Running) (h : Remains s.running running)
      (hcall : call ∈ s.running) (hphase : call.phase = .claimed)
      (hdone : ∀ other ∈ running, other.operation = call.operation → other.phase ≠ .claimed) :
      Effect s ⟨s.db, running, s.history ++ [.executed call.operation]⟩
  | stored (op : Operation) (output : Bytes) (hop : op ∈ s.db.operations)
      (hstate : op.state = .claimed) :
      Effect s ⟨s.db.update op.key (·.settle op.binding output), s.running,
        s.history ++ [.stored op.key output]⟩
  | unknown (operation : Str) : Effect s { s with db := s.db.update operation (·.giveUp) }
  | returned (op : Operation) (output : Bytes) (hop : op ∈ s.db.operations)
      (hstate : op.state = .done) (houtput : op.output = some output) :
      Effect s { s with history := s.history ++ [.returned op.key output] }
  | observed (metadata : Metadata) (hbudget : metadata.budget = s.db.metadata.budget)
      (hreserved : metadata.reserved = s.db.metadata.reserved)
      (hmax : metadata.maxBillable = s.db.metadata.maxBillable)
      (hbillable : metadata.billable = s.db.metadata.billable) :
      Effect s { s with db := { s.db with metadata } }

/-- A step of a process: a chain of effects. -/
def Effects : System → System → Prop := Relation.ReflTransGen Effect

/-! ## Steps are effects -/

theorem getElem?_modify_phase {i : Nat}
    (h : (running.modify index fun call => { call with phase })[i]? = some call) :
    (index = i ∧ call.phase = phase) ∨ (index ≠ i ∧ running[i]? = some call) := by
  rw [List.getElem?_modify] at h
  obtain ⟨old, hold, rfl⟩ := Option.map_eq_some_iff.1 h
  by_cases hi : index = i
  · exact Or.inl ⟨hi, by simp [hi]⟩
  · exact Or.inr ⟨hi, by simp [hi, hold]⟩

theorem remains_modify (hphase : phase ≠ .claimed) :
    Remains running (running.modify index fun call => { call with phase }) := by
  constructor
  · have hkeys : (running.modify index fun call => { call with phase }).map Running.operation
        = running.map Running.operation := by
      apply List.ext_getElem?
      intro i
      rw [List.getElem?_map, List.getElem?_map, List.getElem?_modify]
      by_cases h : index = i
      · cases running[i]? <;> simp [h]
      · simp [h]
    rw [hkeys]
  · intro call hcall hclaimed
    obtain ⟨i, hi⟩ := List.mem_iff_getElem?.1 hcall
    rcases getElem?_modify_phase hi with ⟨-, hnew⟩ | ⟨-, hold⟩
    · exact absurd (hnew.symm.trans hclaimed) hphase
    · exact List.mem_of_getElem? hold

theorem remains_eraseIdx (running : List Running) (index : Nat) :
    Remains running (running.eraseIdx index) :=
  ⟨(List.eraseIdx_sublist running index).map _,
    fun _ h _ => (List.eraseIdx_sublist running index).subset h⟩

theorem modify_executed
    (hnodup : (running.map Running.operation).Nodup) (hcall : running[index]? = some call)
    (hphase : phase ≠ .claimed) : ∀ other ∈ running.modify index fun call => { call with phase },
      other.operation = call.operation → other.phase ≠ .claimed := by
  intro other hother hkey hclaimed
  obtain ⟨i, hi⟩ := List.mem_iff_getElem?.1 hother
  rcases getElem?_modify_phase hi with ⟨-, hnew⟩ | ⟨hne, hold⟩
  · exact hphase (hnew.symm.trans hclaimed)
  · have hat : (running.map Running.operation)[index]? = (running.map Running.operation)[i]? := by
      rw [List.getElem?_map, List.getElem?_map, hcall, hold]
      simp [hkey]
    have hlt : index < (running.map Running.operation).length := by
      rw [List.length_map]
      exact (List.getElem?_eq_some_iff.1 hcall).1
    exact hne ((List.getElem?_inj hlt hnodup).1 hat)

theorem retainedOutput_eq_ok {binding : Str} {output : Bytes}
    (h : retainedOutput op binding = .ok output) : op.state = .done ∧ op.output = some output := by
  unfold retainedOutput at h
  obtain ⟨-, h⟩ := ensure_bind_eq_ok.1 h
  obtain ⟨hstate, h⟩ := ensure_bind_eq_ok.1 h
  cases houtput : op.output with
  | none => simp [houtput] at h
  | some stored =>
    rw [houtput] at h
    obtain ⟨-, h⟩ := ensure_bind_eq_ok.1 h
    cases h
    exact ⟨hstate, rfl⟩

section
variable [FloatData]

variable {output : Bytes} {db : Database} {reserveMicrousd : Int}
  {namespaceName operation usageScope : Str} {document : Value}

theorem claim_eq_ok {result : Claim × Database}
    (h : claim namespaceName operation document reserveMicrousd usageScope db = .ok result) :
    0 ≤ reserveMicrousd ∧
      ∃ binding, claimTransaction operation binding reserveMicrousd usageScope db = .ok result := by
  unfold claim at h
  obtain ⟨operation', hoperation, h⟩ := bind_eq_ok.1 h
  rw [identifier_eq_ok hoperation] at h
  obtain ⟨reserve', hreserve, h⟩ := bind_eq_ok.1 h
  rw [(number_eq_ok hreserve).2] at h
  obtain ⟨scope', hscope, h⟩ := bind_eq_ok.1 h
  rw [identifier_eq_ok hscope] at h
  obtain ⟨binding, -, h⟩ := bind_eq_ok.1 h
  exact ⟨(number_eq_ok hreserve).1, binding, h⟩

theorem claim_retained {db' : Database}
    (h : claim namespaceName operation document reserveMicrousd usageScope db
      = .ok (.retained output, db')) :
    db' = db ∧ ∃ op ∈ db.operations, op.key = operation ∧ op.state = .done ∧
      op.output = some output := by
  obtain ⟨-, binding, h⟩ := claim_eq_ok h
  unfold claimTransaction at h
  cases hfind : db.find operation with
  | none =>
    rw [hfind] at h
    obtain ⟨-, h⟩ := ensure_bind_eq_ok.1 h
    obtain ⟨_, -, h⟩ := bind_eq_ok.1 h
    cases h
  | some prior =>
    rw [hfind] at h
    obtain ⟨out, hout, h⟩ := bind_eq_ok.1 h
    cases h
    obtain ⟨hmem, hkey⟩ := mem_of_find hfind
    exact ⟨rfl, prior, hmem, hkey, retainedOutput_eq_ok hout⟩

theorem claim_claimed {binding : Str} {db' : Database}
    (h : claim namespaceName operation document reserveMicrousd usageScope db
      = .ok (.claimed binding, db')) : operation ∉ db.keys ∧ 0 ≤ reserveMicrousd ∧
      ∃ metadata, db.metadata.reserve reserveMicrousd usageScope = .ok metadata ∧
        db' = ⟨metadata, db.operations ++ [⟨operation, binding, .claimed, none, none⟩]⟩ := by
  obtain ⟨hlow, binding', h⟩ := claim_eq_ok h
  unfold claimTransaction at h
  cases hfind : db.find operation with
  | none =>
    rw [hfind] at h
    obtain ⟨-, h⟩ := ensure_bind_eq_ok.1 h
    obtain ⟨metadata, hmetadata, h⟩ := bind_eq_ok.1 h
    cases h
    exact ⟨find_eq_none.1 hfind, hlow, metadata, hmetadata, rfl⟩
  | some prior =>
    rw [hfind] at h
    obtain ⟨out, -, h⟩ := bind_eq_ok.1 h
    cases h

theorem retained_eq_ok (h : retained namespaceName operation document db = .ok output) :
    ∃ op ∈ db.operations, op.key = operation ∧ op.state = .done ∧ op.output = some output := by
  unfold retained at h
  obtain ⟨operation', hoperation, h⟩ := bind_eq_ok.1 h
  rw [identifier_eq_ok hoperation] at h
  obtain ⟨binding, -, h⟩ := bind_eq_ok.1 h
  cases hfind : db.find operation with
  | none => simp [hfind] at h
  | some op =>
    rw [hfind] at h
    obtain ⟨hmem, hkey⟩ := mem_of_find hfind
    exact ⟨op, hmem, hkey, retainedOutput_eq_ok h⟩

end

variable {output : Bytes} {db db' : Database} {binding operation : Str} {s : System}

theorem storeResult_eq_ok (h : storeResult operation binding output db = .ok db') :
    ∃ op ∈ db.operations, op.key = operation ∧ op.state = .claimed ∧
      db' = db.update op.key (·.settle op.binding output) := by
  unfold storeResult at h
  obtain ⟨⟨op, hop, rfl, rfl, hstate⟩, h⟩ := ensure_bind_eq_ok.1 h
  cases h
  exact ⟨op, hop, rfl, hstate, rfl⟩

theorem settle_mem {op : Operation} (output : Bytes) (hop : op ∈ db.operations)
    (hstate : op.state = .claimed) :
    ∃ op' ∈ (db.update op.key (·.settle op.binding output)).operations,
      op'.key = op.key ∧ op'.state = .done ∧ op'.output = some output := by
  refine ⟨op.settle op.binding output, List.mem_map.2 ⟨op, hop, if_pos rfl⟩, ?_⟩
  simp [Operation.settle, hstate]

theorem usageObserved_eq_ok {complete : Bool} {observation : Observation} {applied : Bool}
    (h : usageObserved complete observation db = .ok (applied, db')) :
    ∃ usageUnknown, db' = { db with metadata := { db.metadata with usageUnknown } } := by
  unfold usageObserved at h
  cases observation with
  | unscoped =>
    obtain ⟨-, h⟩ := ensure_bind_eq_ok.1 h
    cases h
    exact ⟨_, rfl⟩
  | ofSession session expectedEpoch =>
    obtain ⟨_, -, h⟩ := bind_eq_ok.1 h
    obtain ⟨_, -, h⟩ := bind_eq_ok.1 h
    split_ifs at h
    · cases h
      exact ⟨_, rfl⟩
    · cases h
      exact ⟨db.metadata.usageUnknown, rfl⟩

theorem attachUsage_eq_ok {pendingScope session : Str}
    (h : attachUsage pendingScope session db = .ok db') :
    ∃ usageScope, db' = { db with metadata := { db.metadata with usageScope } } := by
  unfold attachUsage at h
  obtain ⟨_, -, h⟩ := bind_eq_ok.1 h
  obtain ⟨_, -, h⟩ := bind_eq_ok.1 h
  split_ifs at h
  · cases h
    exact ⟨_, rfl⟩
  · cases h
    exact ⟨db.metadata.usageScope, rfl⟩

theorem effects_advance (s : System) (index : Nat) {phase : Phase} (hphase : phase ≠ .claimed) :
    Effects s (s.advance index phase) :=
  .single (.moved _ (remains_modify hphase))

theorem effects_finish (s : System) (index : Nat) : Effects s (s.finish index) :=
  .single (.moved _ (remains_eraseIdx _ _))

theorem effects_stored (h : storeResult operation binding output s.db = .ok db) :
    Effects s ⟨db, s.running, s.history ++ [.stored operation output]⟩ := by
  obtain ⟨op, hop, rfl, hstate, rfl⟩ := storeResult_eq_ok h
  exact .single (.stored op output hop hstate)

theorem effects_storedReturned (h : storeResult operation binding output s.db = .ok db) :
    Effects s ⟨db, s.running,
      s.history ++ [.stored operation output, .returned operation output]⟩ := by
  obtain ⟨op, hop, rfl, hstate, rfl⟩ := storeResult_eq_ok h
  obtain ⟨op', hop', hkey, hstate', houtput⟩ := settle_mem output hop hstate
  have hreturned := Effect.returned (s := ⟨s.db.update op.key (·.settle op.binding output),
    s.running, s.history ++ [.stored op.key output]⟩) op' output hop' hstate' houtput
  rw [hkey, List.append_assoc] at hreturned
  exact (Relation.ReflTransGen.single (.stored op output hop hstate)).tail hreturned

section
variable [FloatData] {journal : Journal} {s : System}

theorem effects_runOnce (operation : Str) (document : Value) (reserveMicrousd : Int)
    (usageScope : Str) :
    Effects s (journal.step s (.runOnce operation document reserveMicrousd usageScope)) := by
  simp only [Journal.step]
  split
  · exact .refl
  · rename_i output db h
    obtain ⟨rfl, op, hop, rfl, hstate, houtput⟩ := claim_retained h
    exact .single (.returned op output hop hstate houtput)
  · rename_i binding db h
    obtain ⟨hnew, hlow, metadata, hreserve, rfl⟩ := claim_claimed h
    exact .single (.claimed operation binding reserveMicrousd usageScope metadata hnew hlow hreserve)

theorem effects_execute (hnodup : (s.running.map Running.operation).Nodup) (index : Nat)
    (result : Option (Option Bytes)) : Effects s (journal.step s (.execute index result)) := by
  simp only [Journal.step]
  split
  · rename_i operation binding hcall
    cases result <;>
      exact .single (.executed ⟨operation, binding, .claimed⟩ _ (remains_modify (by simp))
        (List.mem_of_getElem? hcall) rfl (modify_executed hnodup hcall (by simp)))
  · exact .refl

theorem effects_store (index : Nat) (fault : Bool) :
    Effects s (journal.step s (.store index fault)) := by
  simp only [Journal.step]
  split
  · split_ifs
    · exact effects_advance s index (by simp)
    · split
      · exact effects_advance s index (by simp)
      · rename_i db h
        exact (effects_storedReturned h).trans (effects_finish _ index)
  · exact effects_advance s index (by simp)
  · exact .refl

theorem effects_storeAndFail (index : Nat) :
    Effects s (journal.step s (.storeAndFail index)) := by
  simp only [Journal.step]
  split
  · split_ifs
    · exact effects_advance s index (by simp)
    · split
      · exact effects_advance s index (by simp)
      · rename_i db h
        exact (effects_stored h).trans (effects_advance _ index (by simp))
  · exact .refl

theorem effects_handle (index : Nat) (fault : Bool) :
    Effects s (journal.step s (.handle index fault)) := by
  simp only [Journal.step]
  split
  · rename_i operation binding hcall
    split_ifs
    · exact effects_finish s index
    · exact (effects_finish s index).tail (.unknown operation)
  · exact .refl

theorem step_effects (journal : Journal) (hnodup : (s.running.map Running.operation).Nodup)
    (action : Action) : Effects s (journal.step s action) := by
  cases action with
  | runOnce operation document reserveMicrousd usageScope =>
    exact effects_runOnce operation document reserveMicrousd usageScope
  | execute index result => exact effects_execute hnodup index result
  | store index fault => exact effects_store index fault
  | storeAndFail index => exact effects_storeAndFail index
  | handle index fault => exact effects_handle index fault
  | kill index => exact effects_finish s index
  | retained operation document =>
    simp only [Journal.step]
    split
    · exact .refl
    · rename_i output h
      obtain ⟨op, hop, rfl, hstate, houtput⟩ := retained_eq_ok h
      exact .single (.returned op output hop hstate houtput)
  | attachUsage pendingScope session =>
    simp only [Journal.step]
    split
    · exact .refl
    · rename_i db h
      obtain ⟨usageScope, rfl⟩ := attachUsage_eq_ok h
      exact .single (.observed _ rfl rfl rfl rfl)
  | usageObserved complete observation =>
    simp only [Journal.step]
    split
    · exact .refl
    · rename_i applied db h
      obtain ⟨usageUnknown, rfl⟩ := usageObserved_eq_ok h
      exact .single (.observed _ rfl rfl rfl rfl)

end

/-! ## Consistency -/

/-- The journal agrees with the history of its operations. -/
structure Consistent (s : System) : Prop where
  keys : s.db.keys.Nodup
  running : (s.running.map Running.operation).Nodup
  known : ∀ call ∈ s.running, call.operation ∈ s.db.keys
  executed : ∀ key, .executed key ∈ s.history → key ∈ s.db.keys
  once : ∀ key, s.history.count (.executed key) ≤ 1
  pending : ∀ call ∈ s.running, call.phase = .claimed → .executed call.operation ∉ s.history
  stored : ∀ op ∈ s.db.operations,
    storedOutputs s.history op.key = if op.state = .done then op.output.toList else []
  unseen : ∀ key ∉ s.db.keys, storedOutputs s.history key = []
  returned : ∀ key output, .returned key output ∈ s.history →
    storedOutputs s.history key = [output]
  claims : (reservations s.history).map Prod.fst = s.db.keys
  reserved : s.db.metadata.reserved = ((reservations s.history).map Prod.snd).sum
  billable : s.db.metadata.billable = (reservations s.history).countP (·.2 ≠ 0)
  budget : s.db.metadata.reserved ≤ s.db.metadata.budget
  maxBillable : s.db.metadata.billable ≤ s.db.metadata.maxBillable

variable {output : Bytes} {reserveMicrousd : Int} {running : List Running} {op : Operation}
  {usageScope : Str} {s t : System}

theorem reserve_eq_ok {m m' : Metadata} (h : m.reserve reserveMicrousd usageScope = .ok m') :
    m'.budget = m.budget ∧ m'.maxBillable = m.maxBillable ∧
      m'.reserved = m.reserved + reserveMicrousd ∧
      m'.billable = m.billable + (if reserveMicrousd ≠ 0 then 1 else 0) ∧
      (m.reserved ≤ m.budget → m'.reserved ≤ m'.budget) ∧
      (m.billable ≤ m.maxBillable → m'.billable ≤ m'.maxBillable) := by
  unfold Metadata.reserve at h
  split_ifs at h with hzero
  · cases h
    simp [hzero]
  · obtain ⟨-, h⟩ := ensure_bind_eq_ok.1 h
    obtain ⟨⟨hbudget, hbillable⟩, h⟩ := ensure_bind_eq_ok.1 h
    cases h
    refine ⟨rfl, rfl, rfl, ?_, fun _ => hbudget, fun _ => ?_⟩
    · simp [hzero]
    · show m.billable + 1 ≤ m.maxBillable
      omega

theorem Consistent.moved (hs : Consistent s)
    (h : Remains s.running running) : Consistent { s with running } :=
  { hs with
    running := hs.running.sublist h.1
    known := by
      intro call hcall
      have hmem := h.1.subset (List.mem_map_of_mem hcall)
      obtain ⟨old, hold, heq⟩ := List.mem_map.1 hmem
      rw [← heq]
      exact hs.known old hold
    pending := fun call hcall hphase => hs.pending call (h.2 call hcall hphase) hphase }

theorem Consistent.claimed {operation binding : Str}
    {metadata : Metadata} (hs : Consistent s) (hnew : operation ∉ s.db.keys)
    (hreserve : s.db.metadata.reserve reserveMicrousd usageScope = .ok metadata) :
    Consistent ⟨⟨metadata, s.db.operations ++ [⟨operation, binding, .claimed, none, none⟩]⟩,
      s.running ++ [⟨operation, binding, .claimed⟩],
      s.history ++ [.claimed operation reserveMicrousd]⟩ := by
  obtain ⟨hbudget, hmax, hreserved, hbillable, hfits, hcounts⟩ := reserve_eq_ok hreserve
  have hkeys : Database.keys
      ⟨metadata, s.db.operations ++ [⟨operation, binding, .claimed, none, none⟩]⟩
      = s.db.keys ++ [operation] := by
    simp [Database.keys]
  have hstored : ∀ key, storedOutputs (s.history ++ [.claimed operation reserveMicrousd]) key
      = storedOutputs s.history key := by
    intro key
    simp [storedOutputs]
  have hclaims : reservations (s.history ++ [.claimed operation reserveMicrousd])
      = reservations s.history ++ [(operation, reserveMicrousd)] := by
    simp [reservations]
  have hexecuted : ∀ key, .executed key ∈ s.history ++ [.claimed operation reserveMicrousd] →
      .executed key ∈ s.history := by
    intro key h
    simpa using h
  constructor
  case keys =>
    rw [hkeys, List.nodup_append]
    refine ⟨hs.keys, by simp, ?_⟩
    rintro key hkey other hother rfl
    rw [List.mem_singleton] at hother
    rw [hother] at hkey
    exact hnew hkey
  case running =>
    rw [List.map_append, List.nodup_append]
    refine ⟨hs.running, by simp, ?_⟩
    rintro key hkey other hother rfl
    rw [List.map_singleton, List.mem_singleton] at hother
    obtain ⟨call, hcall, heq⟩ := List.mem_map.1 hkey
    have hknown := hs.known call hcall
    rw [heq, hother] at hknown
    exact hnew hknown
  case known =>
    intro call hcall
    rw [hkeys, List.mem_append]
    rcases List.mem_append.1 hcall with hold | hlast
    · exact Or.inl (hs.known call hold)
    · rw [List.mem_singleton] at hlast
      exact Or.inr (by simp [hlast])
  case executed =>
    intro key hkey
    rw [hkeys, List.mem_append]
    exact Or.inl (hs.executed key (hexecuted key hkey))
  case once =>
    intro key
    rw [List.count_append]
    simpa using hs.once key
  case pending =>
    intro call hcall hphase hexec
    rcases List.mem_append.1 hcall with hold | hlast
    · exact hs.pending call hold hphase (hexecuted _ hexec)
    · rw [List.mem_singleton] at hlast
      have hknown := hs.executed _ (hexecuted _ hexec)
      rw [hlast] at hknown
      exact hnew hknown
  case stored =>
    intro op hop
    rw [hstored]
    rcases List.mem_append.1 hop with hold | hlast
    · exact hs.stored op hold
    · rw [List.mem_singleton] at hlast
      rw [hlast]
      exact hs.unseen operation hnew
  case unseen =>
    intro key hkey
    rw [hkeys, List.mem_append, not_or] at hkey
    rw [hstored]
    exact hs.unseen key hkey.1
  case returned =>
    intro key output h
    rw [hstored]
    exact hs.returned key output (by simpa using h)
  case claims =>
    rw [hclaims, hkeys, List.map_append, hs.claims]
    rfl
  case reserved =>
    rw [hclaims, List.map_append, List.sum_append, ← hs.reserved]
    simpa using hreserved
  case billable =>
    rw [hclaims, List.countP_append, Int.natCast_add, ← hs.billable]
    show metadata.billable = _
    rw [hbillable]
    by_cases hzero : reserveMicrousd = 0
    · simp [hzero]
    · simp [hzero]
  case budget => exact hfits hs.budget
  case maxBillable => exact hcounts hs.maxBillable

theorem Consistent.log_executed {call : Running}
    (hs : Consistent s) (h : Remains s.running running) (hcall : call ∈ s.running)
    (hphase : call.phase = .claimed)
    (hdone : ∀ other ∈ running, other.operation = call.operation → other.phase ≠ .claimed) :
    Consistent ⟨s.db, running, s.history ++ [.executed call.operation]⟩ := by
  have hmoved := hs.moved h
  have hstored : ∀ key, storedOutputs (s.history ++ [.executed call.operation]) key
      = storedOutputs s.history key := by
    intro key
    simp [storedOutputs]
  have hclaims : reservations (s.history ++ [.executed call.operation])
      = reservations s.history := by
    simp [reservations]
  constructor
  case keys => exact hmoved.keys
  case running => exact hmoved.running
  case known => exact hmoved.known
  case budget => exact hmoved.budget
  case maxBillable => exact hmoved.maxBillable
  case executed =>
    intro key hkey
    rcases List.mem_append.1 hkey with hold | hlast
    · exact hs.executed key hold
    · rw [List.mem_singleton] at hlast
      cases hlast
      exact hs.known call hcall
  case once =>
    intro key
    rw [List.count_append, List.count_singleton]
    by_cases hkey : call.operation = key
    · have hnone := List.count_eq_zero.2 (hs.pending call hcall hphase)
      rw [← hkey, hnone]
      simp
    · have honce := hs.once key
      simpa [hkey] using honce
  case pending =>
    intro other hother hclaimed hexec
    rcases List.mem_append.1 hexec with hold | hlast
    · exact hmoved.pending other hother hclaimed hold
    · rw [List.mem_singleton] at hlast
      exact hdone other hother (Event.executed.inj hlast) hclaimed
  case stored =>
    intro op hop
    rw [hstored]
    exact hs.stored op hop
  case unseen =>
    intro key hkey
    rw [hstored]
    exact hs.unseen key hkey
  case returned =>
    intro key output hret
    rw [hstored]
    exact hs.returned key output (by simpa using hret)
  case claims =>
    rw [hclaims]
    exact hs.claims
  case reserved =>
    rw [hclaims]
    exact hs.reserved
  case billable =>
    rw [hclaims]
    exact hs.billable

theorem Consistent.log_stored (hs : Consistent s)
    (hop : op ∈ s.db.operations) (hstate : op.state = .claimed) :
    Consistent ⟨s.db.update op.key (·.settle op.binding output), s.running,
      s.history ++ [.stored op.key output]⟩ := by
  have hkeys : (s.db.update op.key (·.settle op.binding output)).keys = s.db.keys :=
    keys_update s.db op.key fun row => (row.moves_settle op.binding output).1
  have hclaims : reservations (s.history ++ [.stored op.key output]) = reservations s.history := by
    simp [reservations]
  have hexecuted : ∀ key, .executed key ∈ s.history ++ [.stored op.key output] →
      .executed key ∈ s.history := by
    intro key h
    simpa using h
  -- nothing was stored for a claimed operation
  have hnone : storedOutputs s.history op.key = [] := by
    rw [hs.stored op hop, hstate]
    rfl
  constructor
  case keys => exact hkeys ▸ hs.keys
  case running => exact hs.running
  case known => exact hkeys ▸ hs.known
  case budget => exact hs.budget
  case maxBillable => exact hs.maxBillable
  case executed =>
    intro key hkey
    rw [hkeys]
    exact hs.executed key (hexecuted key hkey)
  case once =>
    intro key
    rw [List.count_append]
    simpa using hs.once key
  case pending =>
    intro call hcall hphase hexec
    exact hs.pending call hcall hphase (hexecuted _ hexec)
  case stored =>
    intro row hrow
    rw [storedOutputs_stored]
    obtain ⟨old, hold, ⟨hkey, rfl⟩ | ⟨hkey, rfl⟩⟩ := mem_update hrow
    · -- keys are unique, so this is the claimed row
      obtain rfl : old = op := List.inj_on_of_nodup_map hs.keys hold hop hkey
      simp [Operation.settle, hstate, hnone]
    · rw [if_neg (Ne.symm hkey), List.append_nil]
      exact hs.stored row hold
  case unseen =>
    intro key hkey
    rw [hkeys] at hkey
    have hne : op.key ≠ key := by
      rintro rfl
      exact hkey (List.mem_map_of_mem hop)
    rw [storedOutputs_stored, if_neg hne, List.append_nil]
    exact hs.unseen key hkey
  case returned =>
    intro key out hret
    have hold := hs.returned key out (by simpa using hret)
    have hne : op.key ≠ key := by
      rintro rfl
      simp [hnone] at hold
    rw [storedOutputs_stored, if_neg hne, List.append_nil, hold]
  case claims =>
    rw [hclaims, hkeys]
    exact hs.claims
  case reserved =>
    rw [hclaims]
    exact hs.reserved
  case billable =>
    rw [hclaims]
    exact hs.billable

theorem Consistent.unknown (hs : Consistent s) (operation : Str) :
    Consistent { s with db := s.db.update operation (·.giveUp) } := by
  have hkeys : (s.db.update operation (·.giveUp)).keys = s.db.keys :=
    keys_update s.db operation fun row => row.moves_giveUp.1
  refine { hs with
    keys := hkeys ▸ hs.keys
    known := hkeys ▸ hs.known
    executed := hkeys ▸ hs.executed
    unseen := hkeys ▸ hs.unseen
    claims := hkeys ▸ hs.claims
    stored := ?_ }
  intro row hrow
  obtain ⟨old, hold, ⟨-, rfl⟩ | ⟨-, rfl⟩⟩ := mem_update hrow
  · have hold' := hs.stored old hold
    by_cases hclaimed : old.state = .claimed
    · rw [hclaimed] at hold'
      simpa [Operation.giveUp, hclaimed] using hold'
    · simpa [Operation.giveUp, hclaimed] using hold'
  · exact hs.stored row hold

theorem Consistent.log_returned (hs : Consistent s)
    (hop : op ∈ s.db.operations) (hstate : op.state = .done) (houtput : op.output = some output) :
    Consistent { s with history := s.history ++ [.returned op.key output] } := by
  have hstored : ∀ key, storedOutputs (s.history ++ [.returned op.key output]) key
      = storedOutputs s.history key := by
    intro key
    simp [storedOutputs]
  have hclaims : reservations (s.history ++ [.returned op.key output])
      = reservations s.history := by
    simp [reservations]
  have hexecuted : ∀ key, .executed key ∈ s.history ++ [.returned op.key output] →
      .executed key ∈ s.history := by
    intro key h
    simpa using h
  constructor
  case keys => exact hs.keys
  case running => exact hs.running
  case known => exact hs.known
  case budget => exact hs.budget
  case maxBillable => exact hs.maxBillable
  case executed => exact fun key hkey => hs.executed key (hexecuted key hkey)
  case once =>
    intro key
    rw [List.count_append]
    simpa using hs.once key
  case pending => exact fun call hcall hphase h => hs.pending call hcall hphase (hexecuted _ h)
  case stored =>
    intro row hrow
    rw [hstored]
    exact hs.stored row hrow
  case unseen =>
    intro key hkey
    rw [hstored]
    exact hs.unseen key hkey
  case returned =>
    intro key out hret
    rw [hstored]
    rcases List.mem_append.1 hret with hold | hlast
    · exact hs.returned key out hold
    · rw [List.mem_singleton] at hlast
      cases hlast
      rw [hs.stored op hop, hstate, houtput]
      rfl
  case claims =>
    rw [hclaims]
    exact hs.claims
  case reserved =>
    rw [hclaims]
    exact hs.reserved
  case billable =>
    rw [hclaims]
    exact hs.billable

theorem Effect.consistent (h : Effect s t) (hs : Consistent s) : Consistent t := by
  cases h with
  | moved running h => exact hs.moved h
  | claimed operation binding reserveMicrousd usageScope metadata hnew hlow hreserve =>
    exact hs.claimed hnew hreserve
  | executed call running h hcall hphase hdone => exact hs.log_executed h hcall hphase hdone
  | stored op output hop hstate => exact hs.log_stored hop hstate
  | unknown operation => exact hs.unknown operation
  | returned op output hop hstate houtput => exact hs.log_returned hop hstate houtput
  | observed metadata hbudget hreserved hmax hbillable =>
    exact { hs with
      reserved := hreserved.trans hs.reserved
      billable := hbillable.trans hs.billable
      budget := by
        show metadata.reserved ≤ metadata.budget
        rw [hreserved, hbudget]
        exact hs.budget
      maxBillable := by
        show metadata.billable ≤ metadata.maxBillable
        rw [hbillable, hmax]
        exact hs.maxBillable }

/-- What may have become of the rows; the bounds stay. -/
def Database.Moves (db db' : Database) : Prop :=
  (db'.metadata.budget = db.metadata.budget ∧
    db'.metadata.maxBillable = db.metadata.maxBillable) ∧
  ∀ op ∈ db.operations, ∃ op' ∈ db'.operations, op.Moves op'

theorem Database.Moves.refl (db : Database) : db.Moves db :=
  ⟨⟨rfl, rfl⟩, fun op hop => ⟨op, hop, rfl, rfl, Or.inl rfl⟩⟩

theorem Database.Moves.trans {a b c : Database} (hab : a.Moves b) (hbc : b.Moves c) :
    a.Moves c := by
  obtain ⟨⟨hbudget, hmax⟩, hab⟩ := hab
  obtain ⟨⟨hbudget', hmax'⟩, hbc⟩ := hbc
  refine ⟨⟨hbudget'.trans hbudget, hmax'.trans hmax⟩, ?_⟩
  intro op hop
  obtain ⟨op', hop', hmoves⟩ := hab op hop
  obtain ⟨op'', hop'', hmoves'⟩ := hbc op' hop'
  exact ⟨op'', hop'', hmoves.trans hmoves'⟩

theorem Database.moves_update (db : Database) (key : Str) {change : Operation → Operation}
    (h : ∀ op : Operation, op.Moves (change op)) : db.Moves (db.update key change) := by
  refine ⟨⟨rfl, rfl⟩, ?_⟩
  intro op hop
  refine ⟨_, List.mem_map_of_mem hop, ?_⟩
  by_cases hkey : op.key = key
  · rw [if_pos hkey]
    exact h op
  · rw [if_neg hkey]
    exact ⟨rfl, rfl, Or.inl rfl⟩

theorem Effect.moves (h : Effect s t) : s.db.Moves t.db := by
  cases h with
  | moved | executed | returned => exact Database.Moves.refl s.db
  | observed metadata hbudget hreserved hmax hbillable =>
    exact ⟨⟨hbudget, hmax⟩, (Database.Moves.refl s.db).2⟩
  | claimed operation binding reserveMicrousd usageScope metadata hnew hlow hreserve =>
    obtain ⟨hbudget, hmax, -⟩ := reserve_eq_ok hreserve
    exact ⟨⟨hbudget, hmax⟩,
      fun op hop => ⟨op, List.mem_append_left _ hop, rfl, rfl, Or.inl rfl⟩⟩
  | stored op output hop hstate =>
    exact s.db.moves_update op.key fun row => row.moves_settle op.binding output
  | unknown operation => exact s.db.moves_update operation Operation.moves_giveUp

theorem Effects.keep (h : Effects s t) (hs : Consistent s) : Consistent t ∧ s.db.Moves t.db := by
  induction h with
  | refl => exact ⟨hs, Database.Moves.refl s.db⟩
  | tail _ heffect ih => exact ⟨heffect.consistent ih.1, ih.2.trans heffect.moves⟩

/-! ## Runs -/

theorem consistent_create {budgetMicrousd maxBillable : Int} {db : Database}
    (h : Database.create budgetMicrousd maxBillable = .ok db) :
    Consistent ⟨db, [], []⟩ ∧ db.metadata.budget = budgetMicrousd ∧
      db.metadata.maxBillable = maxBillable := by
  unfold Database.create at h
  obtain ⟨budget, hbudget, h⟩ := bind_eq_ok.1 h
  obtain ⟨maximum, hmaximum, h⟩ := bind_eq_ok.1 h
  cases h
  obtain ⟨hlow, rfl⟩ := number_eq_ok hbudget
  obtain ⟨hlow', rfl⟩ := number_eq_ok hmaximum
  refine ⟨?_, rfl, rfl⟩
  constructor
  case budget =>
    show 0 ≤ budget
    omega
  case maxBillable =>
    show 0 ≤ maximum
    omega
  all_goals simp [Database.keys, storedOutputs, reservations]

section
variable [FloatData]

theorem run_keep (journal : Journal) {s : System} (hs : Consistent s) (schedule : List Action) :
    Consistent (journal.run s schedule) ∧ s.db.Moves (journal.run s schedule).db := by
  induction schedule generalizing s with
  | nil => exact ⟨hs, Database.Moves.refl s.db⟩
  | cons action schedule ih =>
    obtain ⟨hstep, hmoves⟩ := (step_effects journal hs.running action).keep hs
    obtain ⟨hrun, hmoves'⟩ := ih hstep
    exact ⟨hrun, hmoves.trans hmoves'⟩

/-- Whatever the processes do with a created journal, and wherever they are killed: every
operation is executed at most once; its row keeps its binding and is settled at most once,
as done or unknown; every output returned for it is the only one that was stored; and the
reservations of the claimed operations are accounted for and stay within the bounds. -/
theorem executes_once_within_budget (journal : Journal) {budgetMicrousd maxBillable : Int}
    {db : Database} (hcreate : Database.create budgetMicrousd maxBillable = .ok db)
    (schedule later : List Action) :
    let s := journal.run ⟨db, [], []⟩ schedule
    let s' := journal.run s later
    (∀ key, s.history.count (.executed key) ≤ 1) ∧
    s.db.keys.Nodup ∧
    (∀ op ∈ s.db.operations, ∃ op' ∈ s'.db.operations, op'.key = op.key ∧
      op'.binding = op.binding ∧
      (op' = op ∨ op.state = .claimed ∧ (op'.state = .done ∨ op'.state = .unknown))) ∧
    (∀ op ∈ s.db.operations,
      storedOutputs s.history op.key = if op.state = .done then op.output.toList else []) ∧
    (∀ key output, .returned key output ∈ s.history →
      storedOutputs s.history key = [output]) ∧
    (reservations s.history).map Prod.fst = s.db.keys ∧
    s.db.metadata.reserved = ((reservations s.history).map Prod.snd).sum ∧
    s.db.metadata.billable = (reservations s.history).countP (·.2 ≠ 0) ∧
    s.db.metadata.reserved ≤ budgetMicrousd ∧
    s.db.metadata.billable ≤ maxBillable := by
  intro s s'
  obtain ⟨hcreated, hbudget, hmax⟩ := consistent_create hcreate
  obtain ⟨hs, ⟨hbudget', hmax'⟩, -⟩ := run_keep journal hcreated schedule
  obtain ⟨-, -, hmoves⟩ := run_keep journal hs later
  rw [← hbudget, ← hmax, ← hbudget', ← hmax']
  exact ⟨hs.once, hs.keys, hmoves, hs.stored, hs.returned, hs.claims, hs.reserved, hs.billable,
    hs.budget, hs.maxBillable⟩

end

namespace Sample

/-- No floats are met here. -/
@[reducible] def noFloats : FloatData where
  Float := Unit
  isfinite _ := false
  repr _ := []
  ofText _ := ()
  nan := ()
  infinity := ()
  negInfinity := ()
  eq _ _ := true
  eqInt _ _ := false

attribute [local instance] noFloats

def journal : Journal := ⟨[110], fun _ => true⟩

/-- A billable operation runs, its caller repeats the request, and another one is refused. -/
def schedule : List Action :=
  [.runOnce [97] .null 5 [115], .execute 0 (some (some [123, 125])), .runOnce [97] .null 5 [115],
    .store 0 false, .runOnce [97] .null 5 [115], .runOnce [98] .null 5 [115]]

theorem executes_once_run :
    ∃ db, Database.create 9 2 = .ok db ∧
      (journal.run ⟨db, [], []⟩ schedule).history
        = [.claimed [97] 5, .executed [97], .stored [97] [123, 125], .returned [97] [123, 125],
          .returned [97] [123, 125]] ∧
      (journal.run ⟨db, [], []⟩ schedule).db.metadata.reserved ≤ 9 := by
  have hcreate : Database.create 9 2 = .ok ⟨⟨9, 0, 2, 0, false, [], 0⟩, []⟩ := rfl
  refine ⟨_, hcreate, by decide +kernel, ?_⟩
  exact (executes_once_within_budget journal hcreate schedule []).2.2.2.2.2.2.2.2.1

end Sample

end IntegrityGuardian.AgentsApi
