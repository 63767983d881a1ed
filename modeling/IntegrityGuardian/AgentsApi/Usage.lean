import IntegrityGuardian.AgentsApi.AtMostOnce
import IntegrityGuardian.AgentsApi.Sessions

/-!
# Unsettled usage and new billable work

The journal keeps one flag for the usage of the last billable operation, and a
recovery clears it with a compare-and-swap on the epoch of that operation.  The
flag says nothing about a request that is still on its way.
-/

namespace IntegrityGuardian.AgentsApi

open Python Library

section
variable [FloatData]

/-- The flag of the journal. -/
def World.usageUnknown (w : World) : Bool := w.db.metadata.usageUnknown

/-- The epoch of the last billable operation. -/
def World.usageEpoch (w : World) : Int := w.db.metadata.usageEpoch

/-- A recovery has not read the provider yet. -/
def Reading.isFirst : Reading → Bool
  | .first => true
  | _ => false

/-- A request of an epoch is delivered in time: the journal still waits for its usage, and
no recovery from its checkpoint has read the provider yet. -/
def World.InTime (w : World) (epoch : Int) : Prop :=
  w.usageUnknown = true ∧ w.usageEpoch = epoch ∧
    ∀ call ∈ w.recovers, call.epoch = epoch → call.reading.isFirst = true

instance (w : World) (epoch : Int) : Decidable (w.InTime epoch) :=
  inferInstanceAs (Decidable (_ ∧ _))

/-- What a step does to the usage bookkeeping. -/
inductive Turn (w : World) : World → Prop
  | quiet (w' : World) (hunknown : w'.usageUnknown = w.usageUnknown)
      (hepoch : w'.usageEpoch = w.usageEpoch) (hrequests : w'.requests = w.requests)
      (hrecovers : w'.recovers.Sublist w.recovers) (hnext : w'.nextRecover = w.nextRecover)
      (hhistory : w'.history = w.history) : Turn w w'
  | claimed (w' : World) (operation : Str) (target : Target) (hfree : w.usageUnknown = false)
      (hunknown : w'.usageUnknown = true) (hepoch : w'.usageEpoch = w.usageEpoch + 1)
      (hrequests : w'.requests = w.requests ++ [⟨operation, w.usageEpoch + 1, target⟩])
      (hrecovers : w'.recovers = w.recovers) (hnext : w'.nextRecover = w.nextRecover)
      (hhistory : w'.history = w.history ++ [.claimed operation (w.usageEpoch + 1)]) : Turn w w'
  | accepted (w' : World) (index : Nat) (request : Request)
      (htime : w.InTime request.epoch)
      (hunknown : w'.usageUnknown = w.usageUnknown) (hepoch : w'.usageEpoch = w.usageEpoch)
      (hrequests : w'.requests = w.requests.eraseIdx index)
      (hrecovers : w'.recovers = w.recovers) (hnext : w'.nextRecover = w.nextRecover)
      (hhistory : w'.history = w.history ++ [.accepted request.operation request.epoch]) :
      Turn w w'
  | checkpoint (w' : World) (call : Recover) (hid : call.id = w.nextRecover)
      (hcall : call.epoch = w.usageEpoch)
      (hunknown : w'.usageUnknown = w.usageUnknown) (hepoch : w'.usageEpoch = w.usageEpoch)
      (hrequests : w'.requests = w.requests) (hrecovers : w'.recovers = w.recovers ++ [call])
      (hnext : w'.nextRecover = w.nextRecover + 1) (hhistory : w'.history = w.history) : Turn w w'
  | read (w' : World) (index : Nat) (call : Recover) (reading : Reading)
      (hcall : w.recovers[index]? = some call) (hreading : reading.isFirst = false)
      (hunknown : w'.usageUnknown = w.usageUnknown) (hepoch : w'.usageEpoch = w.usageEpoch)
      (hrequests : w'.requests = w.requests)
      (hrecovers : w'.recovers = w.recovers.modify index fun call => { call with reading })
      (hnext : w'.nextRecover = w.nextRecover)
      (hhistory : w'.history = w.history ++ [.read call.id]) : Turn w w'
  | observed (w' : World) (call : Recover) (settled : Bool) (hcall : call ∈ w.recovers)
      (hcurrent : call.epoch = w.usageEpoch) (hunknown : w'.usageUnknown = !settled)
      (hepoch : w'.usageEpoch = w.usageEpoch) (hrequests : w'.requests = w.requests)
      (hrecovers : w'.recovers.Sublist w.recovers) (hnext : w'.nextRecover = w.nextRecover)
      (hhistory : w'.history
        = w.history ++ if settled then [.settled call.id call.epoch] else []) : Turn w w'

variable {settled : Bool} {client : Client} {reserveMicrousd : Int} {index : Nat} {call : Recover}
  {namespaceName operation session : Str} {document : Value} {w w' : World}

theorem Turn.ofMetadata (hmetadata : w'.db.metadata = w.db.metadata)
    (hrequests : w'.requests = w.requests) (hrecovers : w'.recovers.Sublist w.recovers)
    (hnext : w'.nextRecover = w.nextRecover) (hhistory : w'.history = w.history) : Turn w w' :=
  .quiet w' (by rw [World.usageUnknown, World.usageUnknown, hmetadata])
    (by rw [World.usageEpoch, World.usageEpoch, hmetadata]) hrequests hrecovers hnext hhistory

theorem Turn.refl (w : World) : Turn w w :=
  .quiet w rfl rfl rfl (List.Sublist.refl _) rfl rfl

/-! ## Billable calls -/

theorem claim_billable {usageScope binding : Str}
    {db db' : Database} (hbillable : 1 ≤ reserveMicrousd)
    (h : claim namespaceName operation document reserveMicrousd usageScope db
      = .ok (.claimed binding, db')) :
    db.metadata.usageUnknown = false ∧ db'.metadata.usageUnknown = true ∧
      db'.metadata.usageEpoch = db.metadata.usageEpoch + 1 := by
  obtain ⟨-, -, metadata, hreserve, rfl⟩ := claim_claimed h
  unfold Metadata.reserve at hreserve
  rw [if_neg (by omega)] at hreserve
  obtain ⟨hfree, hreserve⟩ := ensure_bind_eq_ok.1 hreserve
  obtain ⟨-, hreserve⟩ := ensure_bind_eq_ok.1 hreserve
  cases hreserve
  exact ⟨hfree, rfl, rfl⟩

theorem turn_opened {usageScope : Str} {target : Target} {claimed : Claim × Database}
    (hbillable : 1 ≤ reserveMicrousd)
    (hclaim : claim namespaceName operation document reserveMicrousd usageScope w.db = .ok claimed)
    (h : w.opened operation target claimed = .ok w') : Turn w w' := by
  obtain ⟨result, db⟩ := claimed
  cases result with
  | retained output =>
    obtain ⟨rfl, -⟩ := claim_retained hclaim
    cases target with
    | post session =>
      cases h
      exact Turn.refl w
    | create client taskRef pendingScope =>
      obtain ⟨answer, -, h⟩ := bind_eq_ok.1 h
      cases h
      exact .ofMetadata rfl rfl (List.Sublist.refl _) rfl rfl
  | claimed binding =>
    obtain ⟨hfree, hunknown, hepoch⟩ := claim_billable hbillable hclaim
    cases h
    refine .claimed _ operation target hfree hunknown hepoch ?_ rfl rfl ?_
    · show w.requests ++ _ = _
      rw [hepoch]
      rfl
    · show w.history ++ _ = _
      rw [hepoch]
      rfl

theorem turn_start {taskRef : Str}
    (h : w.start namespaceName client operation taskRef reserveMicrousd = .ok w') :
    Turn w w' := by
  unfold World.start at h
  obtain ⟨taskRef', -, h⟩ := bind_eq_ok.1 h
  obtain ⟨-, h⟩ := ensure_bind_eq_ok.1 h
  obtain ⟨reserve, hreserve, h⟩ := bind_eq_ok.1 h
  obtain ⟨hlow, heq⟩ := number_eq_ok hreserve
  obtain ⟨pendingScope, -, h⟩ := bind_eq_ok.1 h
  obtain ⟨claimed, hclaim, h⟩ := bind_eq_ok.1 h
  exact turn_opened (heq ▸ hlow) hclaim h

theorem turn_message {capsule : Value}
    (h : w.message namespaceName client operation session capsule reserveMicrousd = .ok w') :
    Turn w w' := by
  unfold World.message at h
  obtain ⟨reserve, hreserve, h⟩ := bind_eq_ok.1 h
  obtain ⟨hlow, heq⟩ := number_eq_ok hreserve
  obtain ⟨taskRef, -, h⟩ := bind_eq_ok.1 h
  obtain ⟨snapshotSha256, -, h⟩ := bind_eq_ok.1 h
  obtain ⟨extracts, -, h⟩ := bind_eq_ok.1 h
  obtain ⟨capsule', -, h⟩ := bind_eq_ok.1 h
  obtain ⟨row, -, h⟩ := bind_eq_ok.1 h
  obtain ⟨-, h⟩ := ensure_bind_eq_ok.1 h
  obtain ⟨⟨⟩, -, h⟩ := bind_eq_ok.1 h
  obtain ⟨body, -, h⟩ := bind_eq_ok.1 h
  obtain ⟨claimed, hclaim, h⟩ := bind_eq_ok.1 h
  exact turn_opened (heq ▸ hlow) hclaim h

theorem turn_getD {x : Except Error World} (h : ∀ w', x = .ok w' → Turn w w') :
    Turn w (x.toOption.getD w) := by
  cases x with
  | error e => exact Turn.refl w
  | ok w' => exact h w' rfl

theorem turn_answer {sender : Sender}
    {environment : Option Str} (h : w.answer index sender session environment = .ok w') :
    Turn w w' := by
  unfold World.answer at h
  cases htarget : sender.target with
  | create client taskRef pendingScope =>
    rw [htarget] at h
    obtain ⟨_, -, h⟩ := bind_eq_ok.1 h
    obtain ⟨output, -, h⟩ := bind_eq_ok.1 h
    obtain ⟨db, hdb, h⟩ := bind_eq_ok.1 h
    cases h
    obtain ⟨op, -, -, -, rfl⟩ := storeResult_eq_ok hdb
    exact .ofMetadata rfl rfl (List.Sublist.refl _) rfl rfl
  | post posted =>
    rw [htarget] at h
    obtain ⟨output, -, h⟩ := bind_eq_ok.1 h
    obtain ⟨db, hdb, h⟩ := bind_eq_ok.1 h
    cases h
    obtain ⟨op, -, -, -, rfl⟩ := storeResult_eq_ok hdb
    exact .ofMetadata rfl rfl (List.Sublist.refl _) rfl rfl

/-! ## Recoveries -/

theorem isFirst_read {reading : Reading}
    (h : w.read call = .ok reading) : reading.isFirst = false := by
  unfold World.read at h
  obtain ⟨⟨⟩, -, h⟩ := bind_eq_ok.1 h
  split at h
  · cases h
  · split at h
    · obtain ⟨document, -, h⟩ := bind_eq_ok.1 h
      cases h
      rfl
    · obtain ⟨next, -, h⟩ := bind_eq_ok.1 h
      cases next <;> cases h <;> rfl
    · obtain ⟨next, -, h⟩ := bind_eq_ok.1 h
      cases next <;> cases h <;> rfl
    · obtain ⟨document, -, h⟩ := bind_eq_ok.1 h
      obtain ⟨settled, -, h⟩ := bind_eq_ok.1 h
      cases h
      rfl
    · cases h

omit [FloatData] in
theorem usageObserved_applied {epoch : Int} {db db' : Database}
    (h : usageObserved settled (.ofSession session epoch) db = .ok (true, db')) :
    epoch = db.metadata.usageEpoch ∧ db'.metadata.usageUnknown = !settled ∧
      db'.metadata.usageEpoch = db.metadata.usageEpoch := by
  unfold usageObserved at h
  obtain ⟨session', -, h⟩ := bind_eq_ok.1 h
  obtain ⟨epoch', hnumber, h⟩ := bind_eq_ok.1 h
  rw [(number_eq_ok hnumber).2] at h
  split_ifs at h with hcurrent
  · cases h
    exact ⟨hcurrent.2.symm, rfl, rfl⟩
  · cases h

theorem turn_observe
    (hcall : w.recovers[index]? = some call) : Turn w (w.observe index call settled) := by
  unfold World.observe
  have hsub := List.eraseIdx_sublist w.recovers index
  by_cases hscope : call.scope = call.session
  · rw [if_pos hscope]
    split
    · rename_i db h
      obtain ⟨hcurrent, hunknown, hepoch⟩ := usageObserved_applied h
      exact .observed _ call settled (List.mem_of_getElem? hcall) hcurrent hunknown hepoch rfl
        hsub rfl rfl
    · exact .ofMetadata rfl rfl hsub rfl rfl
  · rw [if_neg hscope]
    exact .ofMetadata rfl rfl hsub rfl rfl

omit [FloatData] in
theorem attachUsage_metadata (pendingScope session : Str) (db : Database) :
    ((attachUsage pendingScope session db).toOption.getD db).metadata.usageUnknown
        = db.metadata.usageUnknown ∧
      ((attachUsage pendingScope session db).toOption.getD db).metadata.usageEpoch
        = db.metadata.usageEpoch := by
  cases h : attachUsage pendingScope session db with
  | error e => exact ⟨rfl, rfl⟩
  | ok db' =>
    obtain ⟨usageScope, rfl⟩ := attachUsage_eq_ok h
    exact ⟨rfl, rfl⟩

/-- The step is no late delivery. -/
def World.Timely (w : World) : Step → Prop
  | .accept index view _ => ∀ request ∈ w.requests[index]?,
      w.Accepts request.target view → w.InTime request.epoch
  | _ => True

instance (w : World) (step : Step) : Decidable (w.Timely step) := by
  unfold World.Timely
  cases step <;> infer_instance

/-- Every timely step is a turn. -/
theorem turn_step (namespaceName : Str) {step : Step} (htime : w.Timely step) :
    Turn w (w.step namespaceName step) := by
  have hsame : w.recovers.Sublist w.recovers := List.Sublist.refl _
  cases step with
  | start client operation taskRef reserveMicrousd => exact turn_getD fun _ => turn_start
  | message client operation session capsule reserveMicrousd =>
    exact turn_getD fun _ => turn_message
  | accept index view environment =>
    simp only [World.step]
    split
    · exact Turn.refl w
    · rename_i request hrequest
      split_ifs with haccepts
      · exact .accepted _ index request (htime request hrequest haccepts) rfl rfl rfl rfl rfl rfl
      · exact Turn.refl w
  | progress view =>
    simp only [World.step]
    split_ifs
    · exact .ofMetadata rfl rfl hsame rfl rfl
    · exact Turn.refl w
  | answer index =>
    simp only [World.step]
    split
    · split
      · exact Turn.refl w
      · exact turn_getD fun _ => turn_answer
    · exact Turn.refl w
  | giveUp index fault =>
    simp only [World.step]
    split
    · cases fault <;> exact .ofMetadata rfl rfl hsame rfl rfl
    · exact Turn.refl w
  | bindSession index =>
    simp only [World.step]
    split
    · split <;> exact .ofMetadata rfl rfl hsame rfl rfl
    · exact Turn.refl w
  | attachUsage index =>
    simp only [World.step]
    split
    · rename_i pendingScope session _
      obtain ⟨hunknown, hepoch⟩ := attachUsage_metadata pendingScope session w.db
      exact .quiet _ hunknown hepoch rfl hsame rfl rfl
    · exact Turn.refl w
  | kill index => exact .ofMetadata rfl rfl hsame rfl rfl
  | recover client session buffered =>
    exact .checkpoint _ ⟨w.nextRecover, client, session, buffered, w.db.metadata.usageScope,
      w.db.metadata.usageEpoch, .first⟩ rfl rfl rfl rfl rfl rfl rfl rfl
  | read index =>
    simp only [World.step]
    split
    · exact Turn.refl w
    · rename_i call hcall
      split
      · exact .ofMetadata rfl rfl (List.eraseIdx_sublist _ _) rfl rfl
      · rename_i reading hreading
        exact .read _ index call reading hcall (isFirst_read hreading) rfl rfl rfl rfl rfl rfl
  | observe index =>
    simp only [World.step]
    split
    · rename_i hcall
      exact turn_observe hcall
    · exact Turn.refl w
  | abandon index => exact .ofMetadata rfl rfl (List.eraseIdx_sublist _ _) rfl rfl

end

/-! ## Histories -/

/-- Every read of a recovery followed the acceptance of an operation. -/
def ReadAfter (history : List Happening) (recover : Nat) (operation : Str) (epoch : Int) : Prop :=
  ∃ before after, history = before ++ .accepted operation epoch :: after ∧ .read recover ∉ before

/-- The usage of an accepted operation was settled by a recovery that read the provider only
after it had accepted the operation. -/
def SettledAfter (history : List Happening) (operation : Str) (epoch : Int) : Prop :=
  ∃ recover before after, history = before ++ .accepted operation epoch :: after ∧
    .read recover ∉ before ∧ .settled recover epoch ∈ after

variable {epoch : Int} {history : List Happening} {recover : Nat} {operation : Str}

theorem ReadAfter.append (h : ReadAfter history recover operation epoch) (more : List Happening) :
    ReadAfter (history ++ more) recover operation epoch := by
  obtain ⟨before, after, rfl, hread⟩ := h
  exact ⟨before, after ++ more, by simp, hread⟩

theorem ReadAfter.settle {history : List Happening} {recover : Nat} {operation : Str}
    {epoch : Int} (h : ReadAfter history recover operation epoch) :
    SettledAfter (history ++ [.settled recover epoch]) operation epoch := by
  obtain ⟨before, after, rfl, hread⟩ := h
  exact ⟨recover, before, after ++ [.settled recover epoch], by simp, hread, by simp⟩

theorem SettledAfter.append (h : SettledAfter history operation epoch) (more : List Happening) :
    SettledAfter (history ++ more) operation epoch := by
  obtain ⟨recover, before, after, rfl, hread, hsettled⟩ := h
  exact ⟨recover, before, after ++ more, by simp, hread, List.mem_append_left _ hsettled⟩

theorem readAfter_of_unread (hmem : .accepted operation epoch ∈ history)
    (hread : .read recover ∉ history) : ReadAfter history recover operation epoch := by
  obtain ⟨before, after, rfl⟩ := List.append_of_mem hmem
  exact ⟨before, after, rfl, fun h => hread (List.mem_append_left _ h)⟩

/-- When a billable operation was claimed, every earlier one that the provider had accepted
was settled. -/
def Gated (history : List Happening) : Prop :=
  ∀ before after operation' epoch', history = before ++ .claimed operation' epoch' :: after →
    ∀ operation epoch, .claimed operation epoch ∈ before → .accepted operation epoch ∈ before →
      SettledAfter before operation epoch

theorem snoc_eq_append_cons {α : Type} {xs before after : List α} {x y : α}
    (h : xs ++ [x] = before ++ y :: after) :
    (xs = before ∧ x = y ∧ after = []) ∨ ∃ rest, xs = before ++ y :: rest := by
  rcases List.eq_nil_or_concat after with rfl | ⟨rest, z, rfl⟩
  · obtain ⟨hxs, hx⟩ := List.append_inj' h rfl
    exact Or.inl ⟨hxs, by simpa using hx, rfl⟩
  · rw [List.concat_eq_append, ← List.cons_append, ← List.append_assoc] at h
    exact Or.inr ⟨rest, (List.append_inj' h rfl).1⟩

theorem Gated.snoc {history : List Happening} {x : Happening} (h : Gated history)
    (hx : ∀ operation' epoch', x = .claimed operation' epoch' → ∀ operation epoch,
      .claimed operation epoch ∈ history → .accepted operation epoch ∈ history →
        SettledAfter history operation epoch) : Gated (history ++ [x]) := by
  intro before after operation' epoch' heq
  rcases snoc_eq_append_cons heq with ⟨rfl, hlast, -⟩ | ⟨rest, hold⟩
  · exact hx operation' epoch' hlast
  · exact h before rest operation' epoch' hold

/-! ## Accounts -/

section
variable [FloatData]

/-- The usage bookkeeping agrees with what happened. -/
structure Accounted (w : World) : Prop where
  ids : (w.recovers.map Recover.id).Nodup
  fresh : ∀ call ∈ w.recovers, call.id < w.nextRecover
  reads : ∀ recover, .read recover ∈ w.history → recover < w.nextRecover
  unread : ∀ call ∈ w.recovers, call.reading.isFirst = true → .read call.id ∉ w.history
  claims : ∀ operation epoch, .claimed operation epoch ∈ w.history → epoch ≤ w.usageEpoch
  begun : ∀ call ∈ w.recovers, ∀ operation, .accepted operation call.epoch ∈ w.history →
    ReadAfter w.history call.id operation call.epoch
  settled : ∀ operation epoch, .accepted operation epoch ∈ w.history →
    epoch < w.usageEpoch ∨ (epoch = w.usageEpoch ∧ w.usageUnknown = false) →
    SettledAfter w.history operation epoch
  gated : Gated w.history

theorem accounted_initial (db : Database) (provider : List ProviderSession) :
    Accounted (World.initial db provider) := by
  constructor
  case gated => exact fun before after _ _ h => absurd h (by simp [World.initial])
  all_goals simp [World.initial]

variable {index : Nat} {reading : Reading} {call : Recover} {w w' : World}

theorem Accounted.sublist (hs : Accounted w)
    (hunknown : w'.usageUnknown = w.usageUnknown) (hepoch : w'.usageEpoch = w.usageEpoch)
    (hrecovers : w'.recovers.Sublist w.recovers) (hnext : w'.nextRecover = w.nextRecover)
    (hhistory : w'.history = w.history) : Accounted w' where
  ids := hs.ids.sublist (hrecovers.map _)
  fresh call hcall := hnext ▸ hs.fresh call (hrecovers.subset hcall)
  reads := by
    rw [hhistory, hnext]
    exact hs.reads
  unread call hcall := by
    rw [hhistory]
    exact hs.unread call (hrecovers.subset hcall)
  claims := by
    rw [hhistory, hepoch]
    exact hs.claims
  begun call hcall := by
    rw [hhistory]
    exact hs.begun call (hrecovers.subset hcall)
  settled := by
    rw [hhistory, hepoch, hunknown]
    exact hs.settled
  gated := by
    rw [hhistory]
    exact hs.gated

theorem Accounted.claimed {operation : Str} (hs : Accounted w)
    (hfree : w.usageUnknown = false) (hepoch : w'.usageEpoch = w.usageEpoch + 1)
    (hunknown : w'.usageUnknown = true) (hrecovers : w'.recovers = w.recovers)
    (hnext : w'.nextRecover = w.nextRecover)
    (hhistory : w'.history = w.history ++ [.claimed operation (w.usageEpoch + 1)]) :
    Accounted w' where
  ids := hrecovers ▸ hs.ids
  fresh := by
    rw [hrecovers, hnext]
    exact hs.fresh
  reads recover hread := by
    rw [hnext]
    exact hs.reads recover (by simpa [hhistory] using hread)
  unread call hcall hfirst hread := by
    rw [hrecovers] at hcall
    exact hs.unread call hcall hfirst (by simpa [hhistory] using hread)
  claims other epoch hclaim := by
    rw [hepoch]
    rw [hhistory, List.mem_append, List.mem_singleton] at hclaim
    rcases hclaim with hold | hnew
    · have hle := hs.claims other epoch hold
      omega
    · cases hnew
      exact Int.le_refl _
  begun call hcall other hmem := by
    rw [hrecovers] at hcall
    rw [hhistory]
    exact (hs.begun call hcall other (by simpa [hhistory] using hmem)).append _
  settled other epoch hmem hdone := by
    rw [hepoch, hunknown] at hdone
    rw [hhistory]
    refine (hs.settled other epoch (by simpa [hhistory] using hmem) ?_).append _
    -- the flag was clear, so the operation of the last epoch is settled too
    rcases Int.lt_or_eq_of_le (show epoch ≤ w.usageEpoch by simp at hdone; omega) with hlt | heq
    · exact Or.inl hlt
    · exact Or.inr ⟨heq, hfree⟩
  gated := by
    rw [hhistory]
    refine hs.gated.snoc fun operation' epoch' _ other epoch hclaim hmem => ?_
    apply hs.settled other epoch hmem
    rcases Int.lt_or_eq_of_le (hs.claims other epoch hclaim) with hlt | heq
    · exact Or.inl hlt
    · exact Or.inr ⟨heq, hfree⟩

theorem Accounted.accepted {request : Request} (hs : Accounted w)
    (htime : w.InTime request.epoch) (hunknown : w'.usageUnknown = w.usageUnknown)
    (hepoch : w'.usageEpoch = w.usageEpoch) (hrecovers : w'.recovers = w.recovers)
    (hnext : w'.nextRecover = w.nextRecover)
    (hhistory : w'.history = w.history ++ [.accepted request.operation request.epoch]) :
    Accounted w' := by
  obtain ⟨hwaits, hcurrent, hunread⟩ := htime
  constructor
  case ids => exact hrecovers ▸ hs.ids
  case fresh =>
    rw [hrecovers, hnext]
    exact hs.fresh
  case reads =>
    intro recover hread
    rw [hnext]
    exact hs.reads recover (by simpa [hhistory] using hread)
  case unread =>
    intro call hcall hfirst hread
    rw [hrecovers] at hcall
    exact hs.unread call hcall hfirst (by simpa [hhistory] using hread)
  case claims =>
    intro other epoch hclaim
    rw [hepoch]
    exact hs.claims other epoch (by simpa [hhistory] using hclaim)
  case begun =>
    intro call hcall other hmem
    rw [hrecovers] at hcall
    by_cases heq : call.epoch = request.epoch
    · -- the recovery has not read the provider yet
      apply readAfter_of_unread hmem
      have hnone := hs.unread call hcall (hunread call hcall heq)
      simpa [hhistory] using hnone
    · rw [hhistory]
      refine (hs.begun call hcall other ?_).append _
      rw [hhistory, List.mem_append, List.mem_singleton] at hmem
      rcases hmem with hold | hnew
      · exact hold
      · exact absurd (Happening.accepted.inj hnew).2 heq
  case settled =>
    intro other epoch hmem hdone
    rw [hepoch, hunknown, hwaits] at hdone
    have hlt : epoch < w.usageEpoch := by simpa using hdone
    rw [hhistory]
    refine (hs.settled other epoch ?_ (Or.inl hlt)).append _
    rw [hhistory, List.mem_append, List.mem_singleton] at hmem
    rcases hmem with hold | hnew
    · exact hold
    · have := (Happening.accepted.inj hnew).2
      omega
  case gated =>
    rw [hhistory]
    exact hs.gated.snoc fun _ _ h => by cases h

theorem Accounted.checkpoint (hs : Accounted w)
    (hid : call.id = w.nextRecover) (hunknown : w'.usageUnknown = w.usageUnknown)
    (hepoch : w'.usageEpoch = w.usageEpoch) (hrecovers : w'.recovers = w.recovers ++ [call])
    (hnext : w'.nextRecover = w.nextRecover + 1) (hhistory : w'.history = w.history) :
    Accounted w' := by
  have hunread : .read call.id ∉ w.history := by
    intro hread
    have := hs.reads call.id hread
    omega
  constructor
  case ids =>
    rw [hrecovers, List.map_append, List.nodup_append]
    refine ⟨hs.ids, by simp, ?_⟩
    rintro id hid' other hother rfl
    obtain ⟨old, hold, rfl⟩ := List.mem_map.1 hid'
    have hlt := hs.fresh old hold
    simp only [List.map_cons, List.map_nil, List.mem_singleton] at hother
    omega
  case fresh =>
    intro other hother
    rw [hrecovers, List.mem_append, List.mem_singleton] at hother
    rw [hnext]
    rcases hother with hold | rfl
    · have := hs.fresh other hold
      omega
    · omega
  case reads =>
    intro recover hread
    rw [hhistory] at hread
    have := hs.reads recover hread
    omega
  case unread =>
    intro other hother hfirst
    rw [hrecovers, List.mem_append, List.mem_singleton] at hother
    rw [hhistory]
    rcases hother with hold | rfl
    · exact hs.unread other hold hfirst
    · exact hunread
  case claims =>
    rw [hhistory, hepoch]
    exact hs.claims
  case begun =>
    intro other hother operation hmem
    rw [hrecovers, List.mem_append, List.mem_singleton] at hother
    rw [hhistory] at hmem ⊢
    rcases hother with hold | rfl
    · exact hs.begun other hold operation hmem
    · exact readAfter_of_unread hmem hunread
  case settled =>
    rw [hhistory, hepoch, hunknown]
    exact hs.settled
  case gated =>
    rw [hhistory]
    exact hs.gated

theorem mem_modify_reading {recovers : List Recover} {other : Recover}
    (hcall : recovers[index]? = some call)
    (h : other ∈ recovers.modify index fun call => { call with reading }) :
    (∃ i, i ≠ index ∧ recovers[i]? = some other) ∨ other = { call with reading } := by
  obtain ⟨i, hi⟩ := List.mem_iff_getElem?.1 h
  rw [List.getElem?_modify] at hi
  obtain ⟨old, hold, rfl⟩ := Option.map_eq_some_iff.1 hi
  by_cases heq : index = i
  · subst heq
    obtain rfl := Option.some.inj (hcall.symm.trans hold)
    exact Or.inr (by simp)
  · exact Or.inl ⟨i, Ne.symm heq, by simpa [heq] using hold⟩

theorem Accounted.read
    (hs : Accounted w) (hcall : w.recovers[index]? = some call) (hreading : reading.isFirst = false)
    (hunknown : w'.usageUnknown = w.usageUnknown) (hepoch : w'.usageEpoch = w.usageEpoch)
    (hrecovers : w'.recovers = w.recovers.modify index fun call => { call with reading })
    (hnext : w'.nextRecover = w.nextRecover)
    (hhistory : w'.history = w.history ++ [.read call.id]) : Accounted w' := by
  have hmem := List.mem_of_getElem? hcall
  constructor
  case ids =>
    have hkeys : w'.recovers.map Recover.id = w.recovers.map Recover.id := by
      rw [hrecovers]
      apply List.ext_getElem?
      intro i
      rw [List.getElem?_map, List.getElem?_map, List.getElem?_modify]
      by_cases h : index = i
      · cases w.recovers[i]? <;> simp [h]
      · simp [h]
    rw [hkeys]
    exact hs.ids
  case fresh =>
    intro other hother
    rw [hrecovers] at hother
    rw [hnext]
    rcases mem_modify_reading hcall hother with ⟨i, -, hold⟩ | rfl
    · exact hs.fresh other (List.mem_of_getElem? hold)
    · exact hs.fresh call hmem
  case reads =>
    intro recover hread
    rw [hhistory, List.mem_append, List.mem_singleton] at hread
    rw [hnext]
    rcases hread with hold | hnew
    · exact hs.reads recover hold
    · cases hnew
      exact hs.fresh call hmem
  case unread =>
    intro other hother hfirst hread
    rw [hrecovers] at hother
    rcases mem_modify_reading hcall hother with ⟨i, hne, hold⟩ | rfl
    · rw [hhistory, List.mem_append, List.mem_singleton] at hread
      rcases hread with hread | hnew
      · exact hs.unread other (List.mem_of_getElem? hold) hfirst hread
      · -- identifiers are unique
        have hat : (w.recovers.map Recover.id)[i]? = (w.recovers.map Recover.id)[index]? := by
          rw [List.getElem?_map, List.getElem?_map, hold, hcall]
          simp [Happening.read.inj hnew]
        have hlt : i < (w.recovers.map Recover.id).length := by
          rw [List.length_map]
          exact (List.getElem?_eq_some_iff.1 hold).1
        exact hne ((List.getElem?_inj hlt hs.ids).1 hat)
    · exact absurd hfirst (by simp [hreading])
  case claims =>
    intro other epoch hclaim
    rw [hepoch]
    exact hs.claims other epoch (by simpa [hhistory] using hclaim)
  case begun =>
    intro other hother operation haccepted
    rw [hrecovers] at hother
    have hold : .accepted operation other.epoch ∈ w.history := by simpa [hhistory] using haccepted
    rw [hhistory]
    rcases mem_modify_reading hcall hother with ⟨i, -, hrow⟩ | rfl
    · exact (hs.begun other (List.mem_of_getElem? hrow) operation hold).append _
    · exact (hs.begun call hmem operation hold).append _
  case settled =>
    intro other epoch haccepted hdone
    rw [hepoch, hunknown] at hdone
    rw [hhistory]
    exact (hs.settled other epoch (by simpa [hhistory] using haccepted) hdone).append _
  case gated =>
    rw [hhistory]
    exact hs.gated.snoc fun _ _ h => by cases h

theorem Accounted.settle {w w' : World} {call : Recover} (hs : Accounted w)
    (hcall : call ∈ w.recovers) (hcurrent : call.epoch = w.usageEpoch)
    (hepoch : w'.usageEpoch = w.usageEpoch) (hrecovers : w'.recovers.Sublist w.recovers)
    (hnext : w'.nextRecover = w.nextRecover)
    (hhistory : w'.history = w.history ++ [.settled call.id call.epoch]) : Accounted w' where
  ids := hs.ids.sublist (hrecovers.map _)
  fresh other hother := hnext ▸ hs.fresh other (hrecovers.subset hother)
  reads recover hread := by
    rw [hnext]
    exact hs.reads recover (by simpa [hhistory] using hread)
  unread other hother hfirst hread :=
    hs.unread other (hrecovers.subset hother) hfirst (by simpa [hhistory] using hread)
  claims other epoch hclaim := by
    rw [hepoch]
    exact hs.claims other epoch (by simpa [hhistory] using hclaim)
  begun other hother operation hmem := by
    rw [hhistory]
    exact (hs.begun other (hrecovers.subset hother) operation
      (by simpa [hhistory] using hmem)).append _
  settled operation epoch hmem hdone := by
    have hold : .accepted operation epoch ∈ w.history := by simpa [hhistory] using hmem
    rw [hepoch] at hdone
    rw [hhistory]
    rcases hdone with hlt | ⟨heq, -⟩
    · exact (hs.settled operation epoch hold (Or.inl hlt)).append _
    · have hsame : epoch = call.epoch := heq.trans hcurrent.symm
      subst hsame
      exact (hs.begun call hcall operation hold).settle
  gated := by
    rw [hhistory]
    exact hs.gated.snoc fun _ _ h => by cases h

theorem Accounted.block (hs : Accounted w) (hunknown : w'.usageUnknown = true)
    (hepoch : w'.usageEpoch = w.usageEpoch) (hrecovers : w'.recovers.Sublist w.recovers)
    (hnext : w'.nextRecover = w.nextRecover) (hhistory : w'.history = w.history) :
    Accounted w' where
  ids := hs.ids.sublist (hrecovers.map _)
  fresh other hother := hnext ▸ hs.fresh other (hrecovers.subset hother)
  reads := by
    rw [hhistory, hnext]
    exact hs.reads
  unread other hother := by
    rw [hhistory]
    exact hs.unread other (hrecovers.subset hother)
  claims := by
    rw [hhistory, hepoch]
    exact hs.claims
  begun other hother := by
    rw [hhistory]
    exact hs.begun other (hrecovers.subset hother)
  settled operation epoch hmem hdone := by
    rw [hhistory] at hmem ⊢
    rw [hepoch, hunknown] at hdone
    exact hs.settled operation epoch hmem (Or.inl (by simpa using hdone))
  gated := by
    rw [hhistory]
    exact hs.gated

theorem Accounted.turn (hs : Accounted w) (h : Turn w w') : Accounted w' := by
  cases h with
  | quiet hunknown hepoch hrequests hrecovers hnext hhistory =>
    exact hs.sublist hunknown hepoch hrecovers hnext hhistory
  | claimed operation target hfree hunknown hepoch hrequests hrecovers hnext hhistory =>
    exact hs.claimed hfree hepoch hunknown hrecovers hnext hhistory
  | accepted index request htime hunknown hepoch hrequests hrecovers hnext hhistory =>
    exact hs.accepted htime hunknown hepoch hrecovers hnext hhistory
  | checkpoint call hid hcall hunknown hepoch hrequests hrecovers hnext hhistory =>
    exact hs.checkpoint hid hunknown hepoch hrecovers hnext hhistory
  | read index call reading hcall hreading hunknown hepoch hrequests hrecovers hnext hhistory =>
    exact hs.read hcall hreading hunknown hepoch hrecovers hnext hhistory
  | observed call settled hcall hcurrent hunknown hepoch hrequests hrecovers hnext hhistory =>
    cases settled with
    | false => exact hs.block hunknown hepoch hrecovers hnext (by simpa using hhistory)
    | true => exact hs.settle hcall hcurrent hepoch hrecovers hnext hhistory

/-! ## Runs -/

/-- No step of a schedule is a late delivery. -/
def AllTimely (namespaceName : Str) : World → List Step → Prop
  | _, [] => True
  | w, step :: schedule => w.Timely step ∧ AllTimely namespaceName (w.step namespaceName step) schedule

instance decidableAllTimely (namespaceName : Str) :
    ∀ (w : World) (schedule : List Step), Decidable (AllTimely namespaceName w schedule)
  | _, [] => .isTrue trivial
  | w, step :: schedule =>
    @instDecidableAnd _ _ _ (decidableAllTimely namespaceName (w.step namespaceName step) schedule)

theorem Accounted.run {namespaceName : Str} (hs : Accounted w)
    {schedule : List Step} (htimely : AllTimely namespaceName w schedule) :
    Accounted (w.run namespaceName schedule) := by
  induction schedule generalizing w with
  | nil => exact hs
  | cons step schedule ih => exact ih (hs.turn (turn_step namespaceName htimely.1)) htimely.2

/-- When every billable request that reaches the provider does so while the journal waits for
its usage, and before any recovery from its checkpoint reads the provider, every claim of a
billable operation finds the earlier ones not accepted or settled by later reads. -/
theorem unsettled_usage_blocks (namespaceName : Str) (db : Database)
    (provider : List ProviderSession) (schedule : List Step)
    (htimely : AllTimely namespaceName (.initial db provider) schedule) :
    Gated ((World.initial db provider).run namespaceName schedule).history :=
  ((accounted_initial db provider).run htimely).gated

end

namespace Sample

attribute [local instance] noFloats

def client : Client := ⟨[123, 125], [116]⟩

/-- A terminal turn with its usage. -/
def turn (id : Str) : Value :=
  .obj [(str "id", .str id), (str "status", .str (str "completed")), (str "subagent_id", .null),
    (str "usage", .obj [(str "input_tokens", .int 1), (str "output_tokens", .int 1),
      (str "total_tokens", .int 2)])]

/-- An idle session with these turns. -/
def session (turns : List Str) : ProviderSession :=
  ⟨[115], .obj [(str "id", .str [115]), (str "status", .str (str "idle"))], [], turns.map turn⟩

def capsule : Value :=
  .obj [(str "task_ref", .str [116]),
    (str "snapshot_sha256", .str (str "sha256:" ++ List.replicate 64 48)), (str "extracts", .arr [])]

def recovery : List Step :=
  [.recover client [115] [], .read 0, .read 0, .read 0, .read 0, .observe 0]

/-- A session is created and recovered. -/
def created : List Step :=
  [.start client [97] [116] 1, .accept 0 (session [[49]]) none, .answer 0, .bindSession 0,
    .attachUsage 0] ++ recovery

/-- The first message is claimed, the session recovered, and only then is the message accepted. -/
def late : List Step :=
  created ++ [.message client [98] [115] capsule 1] ++ recovery
    ++ [.accept 0 (session [[49], [50]]) none, .message client [99] [115] capsule 1]

def database : Database := ⟨⟨9, 0, 3, 0, false, [], 0⟩, []⟩

/-- A message to a recovered session. -/
def prompt : List Step := created ++ [.message client [98] [115] capsule 1]

theorem histories :
    ((World.initial database []).run [110] late).history =
        (([.claimed [97] 1, .accepted [97] 1, .read 0, .read 0, .read 0, .read 0, .settled 0 1,
          .claimed [98] 2, .read 1, .read 1, .read 1, .read 1, .settled 1 2] : List Happening)
            ++ ([.accepted [98] 2] : List Happening)) ++ ([.claimed [99] 3] : List Happening) ∧
      AllTimely [110] (.initial database []) prompt ∧
      ((World.initial database []).run [110] prompt).history =
        [.claimed [97] 1, .accepted [97] 1, .read 0, .read 0, .read 0, .read 0, .settled 0 1,
          .claimed [98] 2] := by
  decide +kernel

/-- The usage of the first message is settled before the provider accepts it, and the second
message is claimed. -/
theorem late_message_not_settled :
    Database.create 9 3 = .ok database ∧
      ¬Gated ((World.initial database []).run [110] late).history := by
  refine ⟨rfl, ?_⟩
  intro hgated
  obtain ⟨recover, before, after, hsplit, -, hsettled⟩ :=
    hgated _ [] [99] 3 histories.1 [98] 2 (by decide) (by decide)
  rcases snoc_eq_append_cons hsplit with ⟨-, -, rfl⟩ | ⟨rest, hearlier⟩
  · cases hsettled
  · have hmem : Happening.accepted [98] 2 ∈ before ++ .accepted [98] 2 :: rest := by simp
    rw [← hearlier] at hmem
    revert hmem
    decide

theorem prompt_message_settled :
    AllTimely [110] (.initial database []) prompt ∧
      .claimed [98] 2 ∈ ((World.initial database []).run [110] prompt).history ∧
      Gated ((World.initial database []).run [110] prompt).history := by
  have hclaimed : Happening.claimed [98] 2
      ∈ ((World.initial database []).run [110] prompt).history := by
    rw [histories.2.2]
    decide
  exact ⟨histories.2.1, hclaimed,
    unsettled_usage_blocks [110] database [] prompt histories.2.1⟩

end Sample

end IntegrityGuardian.AgentsApi
