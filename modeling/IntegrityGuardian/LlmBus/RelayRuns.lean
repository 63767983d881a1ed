import IntegrityGuardian.LlmBus.Relay

/-!
# Runs of relay processes

The journal of the process that holds the lock is the one in the file, and every
id ever sent is in a batch of it.  Both rest on the file a process overwrites being
the one it read, and on a batch never being put under the key of an earlier one.
-/

namespace IntegrityGuardian.LlmBus

open Python Library

namespace Relay

/-! ## The journal -/

variable {batch : Batch} {now : Int} {journal : Journal} {limits : Limits} {messages : List Row}
  {attempted : List Str} {p : Nat} {phase : Phase} {message row : Row} {store : Store}
  {key target : Str} {w w' : World}

theorem put_of_fresh
    (h : key ∉ journal.keys) : journal.put key batch = journal ++ [(key, batch)] := by
  induction journal with
  | nil => rfl
  | cons item journal ih =>
    rw [Journal.keys, List.map_cons, List.mem_cons, not_or] at h
    rw [Journal.put, if_neg (Ne.symm h.1), ih h.2, List.cons_append]

theorem keys_put_of_mem
    (h : key ∈ journal.keys) : (journal.put key batch).keys = journal.keys := by
  induction journal with
  | nil => cases h
  | cons item journal ih =>
    rw [Journal.put]
    split
    · rename_i hkey
      simp [Journal.keys, hkey]
    · rename_i hkey
      rw [Journal.keys, List.map_cons, List.mem_cons] at h
      have hmem : key ∈ Journal.keys journal := h.resolve_left (Ne.symm hkey)
      have htail := ih hmem
      simp only [Journal.keys, List.map_cons] at htail ⊢
      rw [htail]

theorem nodup_keys_put (h : journal.keys.Nodup) : (journal.put key batch).keys.Nodup := by
  by_cases hmem : key ∈ journal.keys
  · rw [keys_put_of_mem hmem]
    exact h
  · rw [put_of_fresh hmem, Journal.keys, List.map_append, List.map_singleton]
    exact List.nodup_append.2 ⟨h, List.nodup_singleton _, by
      intro a ha b hb
      rw [List.mem_singleton.1 hb]
      rintro rfl
      exact hmem ha⟩

theorem mem_put_self (key : Str) (batch : Batch) (journal : Journal) :
    (key, batch) ∈ journal.put key batch := by
  induction journal with
  | nil => simp [Journal.put]
  | cons item journal ih =>
    rw [Journal.put]
    split
    · exact List.mem_cons_self
    · exact List.mem_cons_of_mem _ ih

theorem mem_put_of_ne {item : Str × Batch}
    (h : item ∈ journal) (hne : item.1 ≠ key) : item ∈ journal.put key batch := by
  induction journal with
  | nil => cases h
  | cons first journal ih =>
    rw [Journal.put]
    rcases List.mem_cons.1 h with rfl | h
    · rw [if_neg hne]
      exact List.mem_cons_self
    · split
      · exact List.mem_cons_of_mem _ h
      · exact List.mem_cons_of_mem _ (ih h)

theorem ids_put {batch' : Batch}
    (hkeys : journal.keys.Nodup) (h : (key, batch) ∈ journal) (hids : batch'.ids = batch.ids) :
    (journal.put key batch').ids = journal.ids := by
  induction journal with
  | nil => cases h
  | cons item journal ih =>
    obtain ⟨hnot, htail⟩ := List.nodup_cons.1 hkeys
    rw [Journal.put]
    rcases List.mem_cons.1 h with rfl | h
    · rw [if_pos rfl]
      simp [Journal.ids, hids]
    · have hne : item.1 ≠ key := by
        intro heq
        exact hnot (heq ▸ List.mem_map_of_mem (f := Prod.fst) h)
      rw [if_neg hne]
      have hrest := ih htail h
      simp only [Journal.ids, List.flatMap_cons] at hrest ⊢
      rw [hrest]

/-- Every batch is still there, under its key and with what it sent. -/
def Journal.Grows (journal journal' : Journal) : Prop :=
  ∀ key batch, (key, batch) ∈ journal → ∃ batch', (key, batch') ∈ journal' ∧
    batch'.target = batch.target ∧ batch'.ids = batch.ids ∧
    batch'.timestamp = batch.timestamp ∧ batch'.delivery = batch.delivery

theorem Journal.Grows.refl (journal : Journal) : journal.Grows journal :=
  fun _ batch h => ⟨batch, h, rfl, rfl, rfl, rfl⟩

theorem Journal.Grows.trans {j j' j'' : Journal} (h : j.Grows j') (h' : j'.Grows j'') :
    j.Grows j'' := by
  intro key batch hmem
  obtain ⟨batch', hmem', htarget, hids, htimestamp, hdelivery⟩ := h key batch hmem
  obtain ⟨batch'', hmem'', htarget', hids', htimestamp', hdelivery'⟩ := h' key batch' hmem'
  exact ⟨batch'', hmem'', htarget'.trans htarget, hids'.trans hids,
    htimestamp'.trans htimestamp, hdelivery'.trans hdelivery⟩

theorem Journal.Grows.ids {j j' : Journal} (h : j.Grows j') {id : Str} (hid : id ∈ j.ids) :
    id ∈ j'.ids := by
  obtain ⟨⟨key, batch⟩, hmem, hid⟩ := List.mem_flatMap.1 hid
  obtain ⟨batch', hmem', -, hids, -⟩ := h key batch hmem
  exact List.mem_flatMap.2 ⟨(key, batch'), hmem', hids ▸ hid⟩

theorem grows_put_of_fresh (h : key ∉ journal.keys) : journal.Grows (journal.put key batch) := by
  intro k b hmem
  rw [put_of_fresh h]
  exact ⟨b, List.mem_append_left _ hmem, rfl, rfl, rfl, rfl⟩

theorem settle_keeps (batch : Batch) (outcome : Outcome) :
    (batch.settle outcome).target = batch.target ∧ (batch.settle outcome).ids = batch.ids ∧
      (batch.settle outcome).timestamp = batch.timestamp ∧
      (batch.settle outcome).delivery = batch.delivery := by
  cases outcome <;> exact ⟨rfl, rfl, rfl, rfl⟩

theorem grows_settle (hkeys : journal.keys.Nodup) (h : (key, batch) ∈ journal) (outcome : Outcome) :
    journal.Grows (journal.put key (batch.settle outcome)) := by
  intro k b hmem
  by_cases hk : k = key
  · subst hk
    have hb : b = batch := by
      have hitem := List.inj_on_of_nodup_map hkeys hmem h rfl
      exact congrArg Prod.snd hitem
    subst hb
    exact ⟨b.settle outcome, mem_put_self _ _ _, settle_keeps b outcome⟩
  · exact ⟨b, mem_put_of_ne hmem hk, rfl, rfl, rfl, rfl⟩

/-! ## The messages of a batch -/

theorem pack_eq_some {rows packed : List Row} (h : pack messages rows = some packed) :
    ∃ front, front <+: rows ∧ packed = messages ++ front := by
  induction rows generalizing messages with
  | nil =>
    cases h
    exact ⟨[], List.prefix_rfl, (List.append_nil _).symm⟩
  | cons message rest ih =>
    rw [pack] at h
    obtain ⟨octets, -, h⟩ := Option.bind_eq_some_iff.1 h
    split at h
    · cases h
      exact ⟨[], List.nil_prefix, (List.append_nil _).symm⟩
    · obtain ⟨front, hfront, rfl⟩ := ih h
      exact ⟨message :: front, List.cons_prefix_cons.2 ⟨rfl, hfront⟩, by simp⟩

theorem contiguous_front (rows : List Row) : contiguous rows <+: rows := by
  cases rows with
  | nil => exact List.prefix_rfl
  | cons first rest => exact List.takeWhile_prefix _

/-- The rows a pass may pick from. -/
def eligible (limits : Limits) (attempted : List Str) (store : Store) (target : Str) (now : Int) :
    List Row :=
  (store.rows.filter (waits target now)).filter fun row =>
    row.id ∉ attempted ∧ ∀ ids ∈ limits.onlyIds, row.id ∈ ids

theorem mem_eligible : row ∈ eligible limits attempted store target now ↔
      row ∈ store.rows ∧ (row.recipient = target ∧ row.status = .pending ∧
        now.tdiv 1000000 < row.expiresAt) ∧ row.id ∉ attempted ∧
        ∀ ids ∈ limits.onlyIds, row.id ∈ ids := by
  simp only [eligible, waits, List.mem_filter, decide_eq_true_eq, and_assoc, Option.mem_def]

theorem select_front (h : select limits attempted store target now = some messages) :
    messages <+: eligible limits attempted store target now := by
  obtain ⟨front, hfront, hpacked⟩ := pack_eq_some h
  rw [List.nil_append] at hpacked
  subst hpacked
  have htake : candidates limits attempted store target now <+:
      eligible limits attempted store target now := List.take_prefix _ _
  split at hfront
  · exact (hfront.trans (contiguous_front _)).trans htake
  · exact hfront.trans htake

theorem eligible_sublist (limits : Limits) (attempted : List Str) (store : Store) (target : Str)
    (now : Int) : (eligible limits attempted store target now).Sublist store.rows :=
  List.filter_sublist.trans List.filter_sublist

theorem select_sublist (h : select limits attempted store target now = some messages) :
    messages.Sublist store.rows :=
  (select_front h).sublist.trans (eligible_sublist _ _ _ _ _)

theorem mem_of_front {l front : List Row} (hl : l.Pairwise fun a b => a.seq < b.seq)
    (hfront : front <+: l) (hmessage : message ∈ front) (hrow : row ∈ l)
    (hle : row.seq ≤ message.seq) : row ∈ front := by
  obtain ⟨back, rfl⟩ := hfront
  rcases List.mem_append.1 hrow with hrow | hrow
  · exact hrow
  · have hlt := (List.pairwise_append.1 hl).2.2 message hmessage row hrow
    omega

/-! ## What a step does -/

/-- A pass picks messages whose request id the journal already has. -/
def Collides (limits : Limits) (journal : Journal) (attempted : List Str) (store : Store)
    (target : Str) (now : Int) : Prop :=
  ∃ messages key, select limits attempted store target now = some messages ∧ messages ≠ [] ∧
    requestId target (messages.map Row.id) = some key ∧ key ∈ journal.keys

/-- The file still holds what a process read when the process takes the lock, and
no pass picks messages whose request id is taken. -/
def Guarded (w : World) : Step → Prop
  | .acquire p => ∀ journal, w.phases p = some (.loaded journal) → w.holder = none →
      w.stored = journal
  | .next p _ => ∀ limits journal attempted target targets,
      w.phases p = some (.passing ⟨limits, journal, attempted, target :: targets⟩) →
      limited limits journal target w.clock = false →
      ¬Collides limits journal attempted w.store target w.clock
  | _ => True

/-- Everything one step can do. -/
inductive Change (w : World) : Step → World → Prop
  | call (call : Call) : Change w (.call call) { w with store := after exec w.store call }
  | tick (now : Int) : Change w (.tick now) { w with clock := now }
  | start (p : Nat) (hphase : w.phases p = none) :
      Change w (.start p) (w.enter p (.loaded w.stored))
  | acquire (p : Nat) (journal : Journal) (hphase : w.phases p = some (.loaded journal))
      (hholder : w.holder = none) :
      Change w (.acquire p) ({ w with holder := some p }.enter p (.held journal))
  | ends (step : Step) (p : Nat) (phase : Phase) (hphase : w.phases p = some phase) :
      Change w step (w.leave p)
  | once (p : Nat) (targets : List Str) (limits : Limits) (journal : Journal)
      (hphase : w.phases p = some (.held journal)) :
      Change w (.once p targets limits) (w.enter p (.passing ⟨limits, journal, journal.ids, targets⟩))
  | done (p : Nat) (stamp : Int) (limits : Limits) (journal : Journal) (attempted : List Str)
      (hphase : w.phases p = some (.passing ⟨limits, journal, attempted, []⟩)) :
      Change w (.next p stamp) (w.enter p (.held journal))
  | skip (p : Nat) (stamp : Int) (limits : Limits) (journal : Journal) (attempted : List Str)
      (target : Str) (targets : List Str)
      (hphase : w.phases p = some (.passing ⟨limits, journal, attempted, target :: targets⟩)) :
      Change w (.next p stamp) (w.enter p (.passing ⟨limits, journal, attempted, targets⟩))
  | save (p : Nat) (stamp : Int) (limits : Limits) (journal : Journal) (attempted : List Str)
      (target : Str) (targets : List Str) (messages : List Row) (key : Str)
      (hphase : w.phases p = some (.passing ⟨limits, journal, attempted, target :: targets⟩))
      (hlimited : limited limits journal target w.clock = false)
      (hselect : select limits attempted w.store target w.clock = some messages)
      (hmessages : messages ≠ []) (hkey : requestId target (messages.map Row.id) = some key) :
      Change w (.next p stamp)
        ((w.save (journal.put key (newBatch limits target messages stamp))).enter p
          (.sending ⟨limits, journal.put key (newBatch limits target messages stamp), attempted,
            targets⟩ ⟨key, newBatch limits target messages stamp, messages⟩))
  | send (p : Nat) (pass : Pass) (dispatch : Dispatch)
      (hphase : w.phases p = some (.sending pass dispatch)) :
      Change w (.send p) ({ w with
        history := w.history ++ [Sent.mk dispatch.batch.target dispatch.batch.delivery
          dispatch.requestId dispatch.messages] }.enter p (.sent pass dispatch))
  | conclude (step : Step) (p : Nat) (pass : Pass) (dispatch : Dispatch) (outcome : Outcome)
      (hphase : w.phases p = some (.sending pass dispatch) ∨
        w.phases p = some (.sent pass dispatch)) :
      Change w step (w.conclude p pass dispatch outcome)

theorem choose_eq_dispatch {stamp : Int} {dispatch : Dispatch}
    (h : choose limits journal attempted store target now stamp = .dispatch dispatch) :
    limited limits journal target now = false ∧ ∃ messages key,
      select limits attempted store target now = some messages ∧ messages ≠ [] ∧
      requestId target (messages.map Row.id) = some key ∧
      dispatch = ⟨key, newBatch limits target messages stamp, messages⟩ := by
  unfold choose at h
  split at h
  · cases h
  · rename_i hlimited
    refine ⟨Bool.eq_false_iff.2 hlimited, ?_⟩
    cases hselect : select limits attempted store target now with
    | none =>
      rw [hselect] at h
      cases h
    | some messages =>
      rw [hselect] at h
      cases messages with
      | nil => cases h
      | cons message rest =>
        dsimp only at h
        cases hkey : requestId target ((message :: rest).map Row.id) with
        | none =>
          rw [hkey] at h
          cases h
        | some key =>
          rw [hkey] at h
          cases h
          exact ⟨message :: rest, key, rfl, List.cons_ne_nil _ _, hkey, rfl⟩

theorem change_of_perform {step : Step} (h : perform w step = some w') : Change w step w' := by
  cases step with
  | call call =>
    cases h
    exact .call call
  | tick now =>
    cases h
    exact .tick now
  | start p =>
    rw [perform] at h
    cases hphase : w.phases p with
    | none =>
      rw [hphase] at h
      cases h
      exact .start p hphase
    | some phase =>
      rw [hphase] at h
      cases h
  | acquire p =>
    rw [perform] at h
    cases hphase : w.phases p with
    | none =>
      rw [hphase] at h
      cases h
    | some phase =>
      cases hholder : w.holder with
      | none =>
        rw [hphase, hholder] at h
        cases phase with
        | loaded journal =>
          cases h
          exact .acquire p journal hphase hholder
        | _ => cases h
      | some q =>
        rw [hphase, hholder] at h
        cases phase with
        | loaded journal =>
          cases h
          exact .ends _ p _ hphase
        | _ => cases h
  | once p targets limits =>
    rw [perform] at h
    split at h
    · rename_i journal hphase
      cases h
      exact .once p targets limits journal hphase
    · cases h
  | next p stamp =>
    rw [perform] at h
    split at h
    · rename_i limits journal attempted hphase
      cases h
      exact .done p stamp limits journal attempted hphase
    · rename_i limits journal attempted target targets hphase
      cases hchoose : choose limits journal attempted w.store target w.clock stamp with
      | raises =>
        rw [hchoose] at h
        cases h
        exact .ends _ p _ hphase
      | skip =>
        rw [hchoose] at h
        cases h
        exact .skip p stamp limits journal attempted target targets hphase
      | dispatch dispatch =>
        rw [hchoose] at h
        cases h
        obtain ⟨hlimited, messages, key, hselect, hmessages, hkey, rfl⟩ :=
          choose_eq_dispatch hchoose
        exact .save p stamp limits journal attempted target targets messages key hphase
          hlimited hselect hmessages hkey
    · cases h
  | send p =>
    rw [perform] at h
    split at h
    · rename_i pass dispatch hphase
      cases h
      exact .send p pass dispatch hphase
    · cases h
  | unroutable p =>
    rw [perform] at h
    split at h
    · rename_i pass dispatch hphase
      cases h
      exact .conclude _ p pass dispatch _ (.inl hphase)
    · cases h
  | finish p outcome =>
    rw [perform] at h
    split at h
    · rename_i pass dispatch hphase
      cases h
      exact .conclude _ p pass dispatch outcome (.inr hphase)
    · cases h
  | leave p =>
    rw [perform] at h
    split at h
    · rename_i phase hphase
      cases h
      exact .ends _ p phase hphase
    · cases h

/-! ## Every id is sent once -/

/-- A saved batch: in the journal, with everything the journal has besides what
the pass attempted before. -/
structure InFlight (pass : Pass) (dispatch : Dispatch) : Prop where
  saved : (dispatch.requestId, dispatch.batch) ∈ pass.journal
  ids : dispatch.batch.ids = dispatch.messages.map Row.id
  attempted : ∀ id, id ∈ pass.journal.ids ↔ id ∈ pass.attempted ++ dispatch.batch.ids

/-- What holds of a process in its phase. -/
def PhaseSound (w : World) (p : Nat) : Phase → Prop
  | .loaded _ => w.holder ≠ some p
  | .held journal => w.holder = some p ∧ w.stored = journal
  | .passing pass => w.holder = some p ∧ w.stored = pass.journal ∧
      ∀ id, id ∈ pass.journal.ids ↔ id ∈ pass.attempted
  | .sending pass dispatch => w.holder = some p ∧ w.stored = pass.journal ∧
      InFlight pass dispatch ∧ dispatch.batch.ids.Nodup ∧
      ∀ id ∈ dispatch.batch.ids, id ∉ w.sentIds
  | .sent pass dispatch => w.holder = some p ∧ w.stored = pass.journal ∧ InFlight pass dispatch

structure Sound (w : World) : Prop where
  store : w.store.Sound
  keys : w.stored.keys.Nodup
  phases : ∀ p phase, w.phases p = some phase → PhaseSound w p phase
  running : ∀ p, w.holder = some p → ∃ phase, w.phases p = some phase
  sent : w.sentIds.Nodup
  recorded : ∀ id ∈ w.sentIds, id ∈ w.stored.ids

theorem sound_initial : Sound World.initial where
  store := sound_empty
  keys := List.nodup_nil
  phases := by
    intro p phase h
    cases h
  running := by
    intro p h
    cases h
  sent := List.nodup_nil
  recorded := by
    intro id h
    cases h

theorem Sound.eq_loaded (hs : Sound w) (hp : w.holder ≠ some p)
    (h : w.phases p = some phase) : ∃ journal, phase = .loaded journal := by
  have hphase := hs.phases p phase h
  cases phase with
  | loaded journal => exact ⟨journal, rfl⟩
  | held | passing | sending | sent => exact absurd hphase.1 hp

theorem Sound.enter (hs : Sound w) (hp : w.holder = some p)
    (w' : World) (phase : Phase) (hholder : w'.holder = some p)
    (hphases : w'.phases = Function.update w.phases p (some phase))
    (hphase : PhaseSound w' p phase) :
    (∀ q phase', w'.phases q = some phase' → PhaseSound w' q phase') ∧
      ∀ q, w'.holder = some q → ∃ phase', w'.phases q = some phase' := by
  constructor
  · intro q phase' h
    rw [hphases] at h
    by_cases hq : q = p
    · subst hq
      rw [Function.update_self] at h
      cases h
      exact hphase
    · rw [Function.update_of_ne hq] at h
      have hne : w.holder ≠ some q := by
        rw [hp]
        intro heq
        exact hq (Option.some.inj heq).symm
      obtain ⟨journal, rfl⟩ := hs.eq_loaded hne h
      show w'.holder ≠ some q
      rw [hholder, ← hp]
      exact hne
  · intro q hq
    rw [hholder] at hq
    cases hq
    exact ⟨phase, by rw [hphases, Function.update_self]⟩

theorem Sound.leave (hs : Sound w) (p : Nat) : Sound (w.leave p) where
  store := hs.store
  keys := hs.keys
  phases := by
    intro q phase h
    have hq : q ≠ p := by
      rintro rfl
      rw [World.leave_phases, Function.update_self] at h
      cases h
    have hphase : w.phases q = some phase := by
      rw [World.leave_phases, Function.update_of_ne hq] at h
      exact h
    have hsound := hs.phases q phase hphase
    by_cases hholder : w.holder = some p
    · have hne : w.holder ≠ some q := by
        rw [hholder]
        intro heq
        exact hq (Option.some.inj heq).symm
      obtain ⟨journal, rfl⟩ := hs.eq_loaded hne hphase
      show (if w.holder = some p then none else w.holder) ≠ some q
      rw [if_pos hholder]
      exact (Option.some_ne_none q).symm
    · have hsame : (w.leave p).holder = w.holder := if_neg hholder
      cases phase with
      | loaded journal =>
        show (w.leave p).holder ≠ some q
        rw [hsame]
        exact hsound
      | held journal => exact ⟨hsame.trans hsound.1, hsound.2⟩
      | passing pass => exact ⟨hsame.trans hsound.1, hsound.2⟩
      | sending pass dispatch => exact ⟨hsame.trans hsound.1, hsound.2⟩
      | sent pass dispatch => exact ⟨hsame.trans hsound.1, hsound.2⟩
  running := by
    intro q hq
    by_cases hholder : w.holder = some p
    · have hnone : (w.leave p).holder = none := if_pos hholder
      rw [hnone] at hq
      cases hq
    · have hsame : (w.leave p).holder = w.holder := if_neg hholder
      rw [hsame] at hq
      have hne : q ≠ p := by
        rintro rfl
        exact hholder hq
      obtain ⟨phase, hphase⟩ := hs.running q hq
      exact ⟨phase, by rw [World.leave_phases, Function.update_of_ne hne, hphase]⟩
  sent := hs.sent
  recorded := hs.recorded

theorem inFlight_save (hs : Sound w) {targets : List Str} (stamp : Int)
    (messages : List Row) (hphase : w.phases p = some (.passing ⟨limits, journal, attempted,
      target :: targets⟩)) (hfresh : key ∉ journal.keys) :
    InFlight ⟨limits, journal.put key (newBatch limits target messages stamp), attempted, targets⟩
      ⟨key, newBatch limits target messages stamp, messages⟩ where
  saved := mem_put_self _ _ _
  ids := rfl
  attempted := by
    intro id
    have hattempted := (hs.phases p _ hphase).2.2 id
    dsimp only at hattempted ⊢
    rw [put_of_fresh hfresh, Journal.ids, List.flatMap_append, List.mem_append, List.mem_append]
    rw [Journal.ids] at hattempted
    rw [hattempted]
    simp

theorem Sound.step {w w' : World} {step : Step} (hs : Sound w) (hguard : Guarded w step)
    (h : Change w step w') : Sound w' ∧ w.stored.Grows w'.stored := by
  cases h with
  | call call =>
    refine ⟨⟨?_, hs.keys, hs.phases, hs.running, hs.sent, hs.recorded⟩, .refl _⟩
    rcases after_cases exec w.store call with ⟨reply, h⟩ | ⟨-, h⟩
    · exact sound_exec hs.store h
    · show (after exec w.store call).Sound
      rw [h]
      exact hs.store
  | tick now => exact ⟨⟨hs.store, hs.keys, hs.phases, hs.running, hs.sent, hs.recorded⟩, .refl _⟩
  | start p hphase =>
    have hfree : w.holder ≠ some p := by
      intro hholder
      obtain ⟨phase, h⟩ := hs.running p hholder
      rw [hphase] at h
      cases h
    refine ⟨⟨hs.store, hs.keys, ?_, ?_, hs.sent, hs.recorded⟩, .refl _⟩
    · intro q phase h
      by_cases hq : q = p
      · subst hq
        rw [World.enter_phases, Function.update_self] at h
        cases h
        exact hfree
      · rw [World.enter_phases, Function.update_of_ne hq] at h
        exact hs.phases q phase h
    · intro q hholder
      have hq : q ≠ p := by
        rintro rfl
        exact hfree hholder
      obtain ⟨phase, h⟩ := hs.running q hholder
      exact ⟨phase, by rw [World.enter_phases, Function.update_of_ne hq, h]⟩
  | acquire p journal hphase hholder =>
    have hfile := hguard journal hphase hholder
    refine ⟨⟨hs.store, hs.keys, ?_, ?_, hs.sent, hs.recorded⟩, .refl _⟩
    · intro q phase h
      by_cases hq : q = p
      · subst hq
        rw [World.enter_phases, Function.update_self] at h
        cases h
        exact ⟨rfl, hfile⟩
      · rw [World.enter_phases, Function.update_of_ne hq] at h
        have hne : w.holder ≠ some q := by
          rw [hholder]
          exact (Option.some_ne_none q).symm
        obtain ⟨journal', rfl⟩ := hs.eq_loaded hne h
        exact fun heq => hq (Option.some.inj heq).symm
    · intro q hq
      cases hq
      exact ⟨_, by rw [World.enter_phases, Function.update_self]⟩
  | ends step p phase hphase => exact ⟨hs.leave p, .refl _⟩
  | once p targets limits journal hphase =>
    obtain ⟨hholder, hfile⟩ := hs.phases p _ hphase
    obtain ⟨hphases, hrunning⟩ := hs.enter hholder (w.enter p _)
      (.passing ⟨limits, journal, journal.ids, targets⟩) hholder rfl
      ⟨hholder, hfile, fun _ => Iff.rfl⟩
    exact ⟨⟨hs.store, hs.keys, hphases, hrunning, hs.sent, hs.recorded⟩, .refl _⟩
  | done p stamp limits journal attempted hphase =>
    obtain ⟨hholder, hfile, -⟩ := hs.phases p _ hphase
    obtain ⟨hphases, hrunning⟩ := hs.enter hholder (w.enter p _) (.held journal) hholder rfl
      ⟨hholder, hfile⟩
    exact ⟨⟨hs.store, hs.keys, hphases, hrunning, hs.sent, hs.recorded⟩, .refl _⟩
  | skip p stamp limits journal attempted target targets hphase =>
    obtain ⟨hholder, hfile, hattempted⟩ := hs.phases p _ hphase
    obtain ⟨hphases, hrunning⟩ := hs.enter hholder (w.enter p _)
      (.passing ⟨limits, journal, attempted, targets⟩) hholder rfl ⟨hholder, hfile, hattempted⟩
    exact ⟨⟨hs.store, hs.keys, hphases, hrunning, hs.sent, hs.recorded⟩, .refl _⟩
  | save p stamp limits journal attempted target targets messages key hphase hlimited hselect
      hmessages hkey =>
    obtain ⟨hholder, hfile, hattempted⟩ := hs.phases p _ hphase
    have hfresh : key ∉ journal.keys := fun hmem =>
      hguard limits journal attempted target targets hphase hlimited
        ⟨messages, key, hselect, hmessages, hkey, hmem⟩
    have hgrows : w.stored.Grows (journal.put key (newBatch limits target messages stamp)) := by
      rw [hfile]
      exact grows_put_of_fresh hfresh
    have hnew : ∀ id ∈ messages.map Row.id, id ∉ w.sentIds := by
      intro id hid hsent
      obtain ⟨row, hrow, rfl⟩ := List.mem_map.1 hid
      have hpicked := mem_eligible.1 ((select_front hselect).subset hrow)
      have hstored := hs.recorded _ hsent
      rw [hfile] at hstored
      exact hpicked.2.2.1 ((hattempted _).1 hstored)
    have hnodup : (messages.map Row.id).Nodup :=
      ((select_sublist hselect).map Row.id).nodup hs.store.ids
    obtain ⟨hphases, hrunning⟩ := hs.enter hholder
      ((w.save (journal.put key (newBatch limits target messages stamp))).enter p _)
      (.sending ⟨limits, journal.put key (newBatch limits target messages stamp), attempted,
        targets⟩ ⟨key, newBatch limits target messages stamp, messages⟩)
      hholder rfl
      ⟨hholder, rfl, inFlight_save hs stamp messages hphase hfresh, hnodup, hnew⟩
    refine ⟨⟨hs.store, ?_, hphases, hrunning, hs.sent, fun id hid => hgrows.ids (hs.recorded id hid)⟩,
      hgrows⟩
    have hkeys := hs.keys
    rw [hfile] at hkeys
    exact nodup_keys_put hkeys
  | send p pass dispatch hphase =>
    obtain ⟨hholder, hfile, hflight, hnodup, hnew⟩ := hs.phases p _ hphase
    obtain ⟨hphases, hrunning⟩ := hs.enter hholder
      ({ w with
        history := w.history ++ [Sent.mk dispatch.batch.target dispatch.batch.delivery
          dispatch.requestId dispatch.messages] }.enter p _)
      (.sent pass dispatch) hholder rfl ⟨hholder, hfile, hflight⟩
    refine ⟨⟨hs.store, hs.keys, hphases, hrunning, ?_, ?_⟩, .refl _⟩
    · show ((w.history ++ [_]).flatMap _).Nodup
      rw [List.flatMap_append, List.nodup_append]
      refine ⟨hs.sent, by simpa [← hflight.ids] using hnodup, ?_⟩
      intro id hid id' hid' heq
      subst heq
      refine hnew id ?_ hid
      rw [hflight.ids]
      simpa using hid'
    · intro id hid
      have hid : id ∈ (w.history ++ [_]).flatMap _ := hid
      rw [List.flatMap_append, List.mem_append] at hid
      rcases hid with hid | hid
      · exact hs.recorded id hid
      · show id ∈ w.stored.ids
        rw [hfile, hflight.attempted, hflight.ids]
        exact List.mem_append_right _ (by simpa using hid)
  | conclude step p pass dispatch outcome hphase =>
    obtain ⟨hholder, hfile, hflight⟩ :
        w.holder = some p ∧ w.stored = pass.journal ∧ InFlight pass dispatch := by
      rcases hphase with hphase | hphase
      · obtain ⟨hholder, hfile, hflight, -⟩ := hs.phases p _ hphase
        exact ⟨hholder, hfile, hflight⟩
      · exact hs.phases p _ hphase
    have hkeys := hs.keys
    rw [hfile] at hkeys
    have hids : (pass.journal.put dispatch.requestId (dispatch.batch.settle outcome)).ids =
        pass.journal.ids := ids_put hkeys hflight.saved (settle_keeps _ _).2.1
    have hgrows : w.stored.Grows
        (pass.journal.put dispatch.requestId (dispatch.batch.settle outcome)) := by
      rw [hfile]
      exact grows_settle hkeys hflight.saved outcome
    obtain ⟨hphases, hrunning⟩ := hs.enter hholder (w.conclude p pass dispatch outcome)
      (.passing { pass with
        journal := pass.journal.put dispatch.requestId (dispatch.batch.settle outcome)
        attempted := pass.attempted ++ dispatch.batch.ids })
      hholder rfl
      ⟨hholder, rfl, by
        intro id
        dsimp only
        rw [hids]
        exact hflight.attempted id⟩
    exact ⟨⟨hs.store, nodup_keys_put hkeys, hphases, hrunning, hs.sent,
      fun id hid => hgrows.ids (hs.recorded id hid)⟩, hgrows⟩

/-- A possible step that meets the condition. -/
def GuardedStep (w : World) (step : Step) (w' : World) : Prop :=
  Guarded w step ∧ Performs w step w'

theorem sound_steps {w w' : World} {steps : List Step} (hs : Sound w)
    (h : Steps GuardedStep w steps w') : Sound w' ∧ w.stored.Grows w'.stored := by
  induction h with
  | nil w => exact ⟨hs, .refl _⟩
  | cons step rest ih =>
    obtain ⟨hsound, hgrows⟩ := hs.step step.1 (change_of_perform step.2)
    obtain ⟨hsound', hgrows'⟩ := ih hsound
    exact ⟨hsound', hgrows.trans hgrows'⟩

/-! ## The order of the sends -/

/-- The clock never goes back, and no pass is filtered by ids. -/
def InOrder (w : World) : Step → Prop
  | .tick now => w.clock ≤ now
  | .once _ _ limits => limits.onlyIds = none
  | _ => True

/-- Every row of a target up to a `seq` that still waits is in the journal. -/
def Passed (w : World) (target : Str) (seq : Nat) : Prop :=
  seq ≤ w.store.sequence ∧ ∀ row ∈ w.store.rows, waits target w.clock row = true →
    row.seq ≤ seq → row.id ∈ w.stored.ids

theorem waits_eq_true : waits target now row = true ↔
      row.recipient = target ∧ row.status = .pending ∧ now.tdiv 1000000 < row.expiresAt := by
  simp [waits]

theorem tdiv_million_mono {a b : Int} (h : a ≤ b) : a.tdiv 1000000 ≤ b.tdiv 1000000 := by
  exact Int.tdiv_le_tdiv (by decide) h

theorem Passed.mono {seq : Nat} (h : Passed w target seq)
    (hstore : Descends w.store w'.store) (hclock : w.clock ≤ w'.clock)
    (hfile : w.stored.Grows w'.stored) : Passed w' target seq := by
  refine ⟨h.1.trans hstore.1, ?_⟩
  intro row' hrow' hwaits hle
  obtain ⟨row, hrow, hseq, hcontent, hrank⟩ := hstore.2 row' hrow' (hle.trans h.1)
  obtain ⟨hrecipient, hpending, hexpires⟩ := waits_eq_true.1 hwaits
  have hid : row'.id = row.id := congrArg Content.id hcontent
  have hpending' : row.status = .pending := by
    rw [hpending] at hrank
    cases hstatus : row.status with
    | pending => rfl
    | acked | replied =>
      rw [hstatus] at hrank
      exact absurd hrank (by decide)
  have hwaits' : waits target w.clock row = true := by
    refine waits_eq_true.2 ⟨?_, hpending', ?_⟩
    · rw [← hrecipient]
      exact (congrArg Content.recipient hcontent).symm
    · have hexpires' : row'.expiresAt = row.expiresAt := congrArg Content.expiresAt hcontent
      have hle' := tdiv_million_mono hclock
      omega
  rw [hid]
  exact hfile.ids (h.2 row hrow hwaits' (hseq ▸ hle))

/-- The `seq` of everything sent to a target, in the order of the sends. -/
def World.seqs (w : World) (target : Str) : List Nat :=
  (w.history.filter fun entry => entry.target = target).flatMap fun entry =>
    entry.messages.map Row.seq

/-- What the order rests on in each phase. -/
def PhaseOrdered (w : World) : Phase → Prop
  | .loaded _ | .held _ => True
  | .passing pass => pass.limits.onlyIds = none
  | .sending pass dispatch => pass.limits.onlyIds = none ∧
      (dispatch.messages.map Row.seq).Pairwise (· < ·) ∧
      ∀ message ∈ dispatch.messages, Passed w dispatch.batch.target message.seq ∧
        ∀ seq ∈ w.seqs dispatch.batch.target, seq < message.seq
  | .sent pass _ => pass.limits.onlyIds = none

structure Ordered (w : World) : Prop where
  increasing : ∀ target, (w.seqs target).Pairwise (· < ·)
  passed : ∀ target, ∀ seq ∈ w.seqs target, Passed w target seq
  phases : ∀ p phase, w.phases p = some phase → PhaseOrdered w phase

theorem ordered_initial : Ordered World.initial where
  increasing := fun _ => .nil
  passed := by
    intro target seq h
    cases h
  phases := by
    intro p phase h
    cases h

theorem PhaseOrdered.mono (h : PhaseOrdered w phase)
    (hstore : Descends w.store w'.store) (hclock : w.clock ≤ w'.clock)
    (hfile : w.stored.Grows w'.stored) (hhistory : w'.history = w.history) :
    PhaseOrdered w' phase := by
  cases phase with
  | loaded | held | passing | sent => exact h
  | sending pass dispatch =>
    refine ⟨h.1, h.2.1, ?_⟩
    intro message hmessage
    obtain ⟨hpassed, hseqs⟩ := h.2.2 message hmessage
    refine ⟨hpassed.mono hstore hclock hfile, ?_⟩
    intro seq hseq
    rw [World.seqs, hhistory] at hseq
    exact hseqs seq hseq

theorem Ordered.mono (h : Ordered w) (hstore : Descends w.store w'.store)
    (hclock : w.clock ≤ w'.clock) (hfile : w.stored.Grows w'.stored)
    (hhistory : w'.history = w.history) (hphases : ∀ p phase, w'.phases p = some phase →
      w.phases p = some phase ∨ PhaseOrdered w' phase) : Ordered w' := by
  have hseqs : ∀ target, w'.seqs target = w.seqs target := by
    intro target
    rw [World.seqs, hhistory, World.seqs]
  refine ⟨?_, ?_, ?_⟩
  · intro target
    rw [hseqs]
    exact h.increasing target
  · intro target seq hseq
    rw [hseqs] at hseq
    exact (h.passed target seq hseq).mono hstore hclock hfile
  · intro p phase hphase
    rcases hphases p phase hphase with hold | hnew
    · exact (h.phases p phase hold).mono hstore hclock hfile hhistory
    · exact hnew

theorem descends_refl (s : Store) : Descends s s :=
  ⟨le_rfl, fun row hrow _ => ⟨row, hrow, rfl, rfl, le_rfl⟩⟩

theorem descends_after {s : Store} (hs : s.Sound) (call : Call) :
    Descends s (after exec s call) := descends_run hs [call]

theorem phases_update {phase : Option Phase} {Q : Phase → Prop}
    (hQ : ∀ phase', phase = some phase' → Q phase') :
    ∀ q phase', Function.update w.phases p phase q = some phase' →
      w.phases q = some phase' ∨ Q phase' := by
  intro q phase' h
  by_cases hq : q = p
  · subst hq
    rw [Function.update_self] at h
    exact .inr (hQ phase' h)
  · rw [Function.update_of_ne hq] at h
    exact .inl h

theorem passed_select (hs : Sound w) (hfilter : limits.onlyIds = none)
    (hselect : select limits attempted w.store target w.clock = some messages)
    (hattempted : ∀ id ∈ attempted, id ∈ journal.ids)
    (hmessages : ∀ row ∈ messages, row.id ∈ journal.ids)
    (hmessage : message ∈ messages) (hrow : row ∈ w.store.rows)
    (hwaits : waits target w.clock row = true) (hle : row.seq ≤ message.seq) :
    row.id ∈ journal.ids := by
  by_cases hold : row.id ∈ attempted
  · exact hattempted _ hold
  · have hpick : row ∈ eligible limits attempted w.store target w.clock := by
      refine mem_eligible.2 ⟨hrow, waits_eq_true.1 hwaits, hold, ?_⟩
      rw [hfilter]
      intro ids h
      cases h
    have hsorted : (eligible limits attempted w.store target w.clock).Pairwise
        fun a b => a.seq < b.seq := hs.store.ordered.sublist (eligible_sublist _ _ _ _ _)
    exact hmessages row (mem_of_front hsorted (select_front hselect) hmessage hpick hle)

theorem Ordered.step {w w' : World} {step : Step} (hs : Sound w) (h : Ordered w)
    (hguard : Guarded w step) (horder : InOrder w step) (hchange : Change w step w') :
    Ordered w' := by
  have hgrows := (hs.step hguard hchange).2
  cases hchange with
  | call call =>
    exact h.mono (descends_after hs.store call) le_rfl hgrows rfl fun p phase hp => .inl hp
  | tick now => exact h.mono (descends_refl _) horder hgrows rfl fun p phase hp => .inl hp
  | start p hphase =>
    refine h.mono (descends_refl _) le_rfl hgrows rfl (phases_update ?_)
    rintro _ ⟨⟩
    trivial
  | acquire p journal hphase hholder =>
    refine h.mono (descends_refl _) le_rfl hgrows rfl (phases_update ?_)
    rintro _ ⟨⟩
    trivial
  | ends step p phase hphase =>
    refine h.mono (descends_refl _) le_rfl hgrows rfl (phases_update ?_)
    rintro _ ⟨⟩
  | once p targets limits journal hphase =>
    refine h.mono (descends_refl _) le_rfl hgrows rfl (phases_update ?_)
    rintro _ ⟨⟩
    exact horder
  | done p stamp limits journal attempted hphase =>
    refine h.mono (descends_refl _) le_rfl hgrows rfl (phases_update ?_)
    rintro _ ⟨⟩
    trivial
  | skip p stamp limits journal attempted target targets hphase =>
    refine h.mono (descends_refl _) le_rfl hgrows rfl (phases_update ?_)
    rintro _ ⟨⟩
    exact h.phases p _ hphase
  | save p stamp limits journal attempted target targets messages key hphase hlimited hselect
      hmessages hkey =>
    have hfilter : limits.onlyIds = none := h.phases p _ hphase
    obtain ⟨hholder, hfile, hattempted⟩ := hs.phases p _ hphase
    have hfresh : key ∉ journal.keys := fun hmem =>
      hguard limits journal attempted target targets hphase hlimited
        ⟨messages, key, hselect, hmessages, hkey, hmem⟩
    have hflight := inFlight_save hs stamp messages hphase hfresh
    refine h.mono (descends_refl _) le_rfl hgrows rfl (phases_update ?_)
    rintro _ ⟨⟩
    refine ⟨hfilter, ?_, ?_⟩
    · rw [List.pairwise_map]
      exact hs.store.ordered.sublist (select_sublist hselect)
    · intro message hmessage
      have hstored := (select_sublist hselect).subset hmessage
      have hpicked := mem_eligible.1 ((select_front hselect).subset hmessage)
      refine ⟨⟨hs.store.le_sequence message hstored, ?_⟩, ?_⟩
      · intro row hrow hwaits hle
        refine passed_select hs hfilter hselect ?_ ?_ hmessage hrow hwaits hle
        · intro id hid
          exact (hflight.attempted id).2 (List.mem_append_left _ hid)
        · intro row' hrow'
          exact (hflight.attempted row'.id).2
            (List.mem_append_right _ (List.mem_map_of_mem hrow'))
      · -- an earlier `seq` of the target has this message behind it, so in the journal
        intro seq hseq
        by_contra hge
        have hid := (h.passed target seq hseq).2 message hstored
          (waits_eq_true.2 hpicked.2.1) (Nat.not_lt.1 hge)
        rw [hfile] at hid
        exact hpicked.2.2.1 ((hattempted message.id).1 hid)
  | send p pass dispatch hphase =>
    obtain ⟨hfilter, hsorted, hbehind⟩ := h.phases p _ hphase
    have hseqs : ∀ target, World.seqs ({ w with
        history := w.history ++ [Sent.mk dispatch.batch.target dispatch.batch.delivery
          dispatch.requestId dispatch.messages] }.enter p (.sent pass dispatch)) target =
        w.seqs target ++
          if dispatch.batch.target = target then dispatch.messages.map Row.seq else [] := by
      intro target
      unfold World.seqs World.enter
      rw [List.filter_append, List.flatMap_append]
      split
      · rename_i htarget
        simp [htarget]
      · rename_i htarget
        simp [htarget]
    refine ⟨?_, ?_, ?_⟩
    · intro target
      rw [hseqs]
      split
      · rename_i htarget
        subst htarget
        refine List.pairwise_append.2 ⟨h.increasing _, hsorted, ?_⟩
        intro seq hseq seq' hseq'
        obtain ⟨message, hmessage, rfl⟩ := List.mem_map.1 hseq'
        exact (hbehind message hmessage).2 seq hseq
      · rw [List.append_nil]
        exact h.increasing target
    · intro target seq hseq
      rw [hseqs, List.mem_append] at hseq
      rcases hseq with hseq | hseq
      · exact h.passed target seq hseq
      · split at hseq
        · rename_i htarget
          subst htarget
          obtain ⟨message, hmessage, rfl⟩ := List.mem_map.1 hseq
          exact (hbehind message hmessage).1
        · cases hseq
    · intro q phase hq
      by_cases hqp : q = p
      · subst hqp
        rw [World.enter_phases, Function.update_self] at hq
        cases hq
        exact hfilter
      · rw [World.enter_phases, Function.update_of_ne hqp] at hq
        have hne : w.holder ≠ some q := by
          rw [(hs.phases p _ hphase).1]
          intro heq
          exact hqp (Option.some.inj heq).symm
        obtain ⟨journal, rfl⟩ := hs.eq_loaded hne hq
        trivial
  | conclude step p pass dispatch outcome hphase =>
    have hfilter : pass.limits.onlyIds = none := by
      rcases hphase with hphase | hphase
      · exact (h.phases p _ hphase).1
      · exact h.phases p _ hphase
    refine h.mono (descends_refl _) le_rfl hgrows rfl (phases_update ?_)
    rintro _ ⟨⟩
    exact hfilter

/-- A step under the condition that also keeps the order. -/
def OrderedStep (w : World) (step : Step) (w' : World) : Prop :=
  InOrder w step ∧ GuardedStep w step w'

theorem ordered_steps {w w' : World} {steps : List Step} (hs : Sound w) (ho : Ordered w)
    (h : Steps OrderedStep w steps w') : Ordered w' := by
  induction h with
  | nil w => exact ho
  | cons step rest ih =>
    have hchange := change_of_perform step.2.2
    exact ih (hs.step step.2.1 hchange).1 (ho.step hs step.2.1 step.1 hchange)

/-! ## The guarantee -/

/-- The messages sent to one target in one delivery mode, in the order of the sends. -/
def World.sentTo (w : World) (target : Str) (delivery : Option Delivery) : List Row :=
  (w.history.filter fun entry => entry.target = target ∧ entry.delivery = delivery).flatMap
    Sent.messages

theorem sublist_flatMap {l l' : List Sent} (h : l.Sublist l') :
    (l.flatMap Sent.messages).Sublist (l'.flatMap Sent.messages) := by
  induction h with
  | slnil => exact .slnil
  | cons entry _ ih => exact ih.trans (List.sublist_append_right _ _)
  | cons_cons entry _ ih => exact (List.Sublist.refl _).append ih

theorem Ordered.sentTo (h : Ordered w) (target : Str) (delivery : Option Delivery) :
    (w.sentTo target delivery).Pairwise fun a b => a.seq < b.seq := by
  have hsublist : (w.sentTo target delivery).Sublist
      ((w.history.filter fun entry => entry.target = target).flatMap Sent.messages) := by
    have hfilter : w.history.filter (fun entry => entry.target = target ∧ entry.delivery = delivery)
        = (w.history.filter fun entry => entry.target = target).filter
          fun entry => entry.delivery = delivery := by
      rw [List.filter_filter]
      congr 1
      funext entry
      simp [and_comm]
    rw [World.sentTo, hfilter]
    exact sublist_flatMap List.filter_sublist
  have hseqs := h.increasing target
  rw [World.seqs, ← List.map_flatMap, List.pairwise_map] at hseqs
  exact hseqs.sublist hsublist

/-- In every run whose steps find the journal as it was read and write no batch
under a request id already taken: no id is sent twice, and no batch leaves the
journal.  Where the clock also never goes back and no pass is filtered, the
messages of one target and one delivery mode are sent in the order of their `seq`. -/
theorem relay_sends_once {past future : List Step} {w w' : World}
    (hpast : Steps GuardedStep World.initial past w) (hfuture : Steps GuardedStep w future w') :
    w'.sentIds.Nodup ∧ w.stored.Grows w'.stored ∧
      (Steps OrderedStep World.initial (past ++ future) w' →
        ∀ target delivery, (w'.sentTo target delivery).Pairwise fun a b => a.seq < b.seq) := by
  obtain ⟨hs, -⟩ := sound_steps sound_initial hpast
  obtain ⟨hs', hgrows⟩ := sound_steps hs hfuture
  refine ⟨hs'.sent, hgrows, ?_⟩
  intro hordered
  exact (ordered_steps sound_initial ordered_initial hordered).sentTo

/-! ## Two relays -/

section Sample

/-- A message for `grok`, and the limits of the command line. -/
def sampleCall : Call :=
  .post (Json.fields [("id", .str (str "m")), ("from", .str (str "codex")),
    ("to", .str (str "grok")), ("body", .str (str "x")), ("reply_to", .null)])
    (str "codex") [str "codex", str "grok"] 600 0

def sampleLimits : Limits := ⟨[], 60, 20, none⟩

/-- One relay finds the message and sends it. -/
def oneRelay (p : Nat) : List Step :=
  [.acquire p, .once p [str "grok"] sampleLimits, .next p 0, .send p, .leave p]

/-- A step of a relay that is alone, on a directory without a journal. -/
def alone (w : World) : Step → Bool
  | .tick now => w.clock ≤ now
  | .acquire p =>
    match w.phases p with
    | some (.loaded journal) => w.file.isNone && journal.isEmpty
    | _ => true
  | .once _ _ limits => limits.onlyIds.isNone
  | .next p _ =>
    match w.phases p with
    | some (.passing pass) => pass.journal.isEmpty
    | _ => true
  | _ => true

variable {steps : List Step} {w : World}

theorem guarded_of_alone {step : Step} (h : alone w step = true) :
    Guarded w step ∧ InOrder w step := by
  cases step with
  | tick now => exact ⟨trivial, by simpa [alone, InOrder] using h⟩
  | acquire p =>
    refine ⟨?_, trivial⟩
    intro journal hphase _
    rw [alone, hphase] at h
    obtain ⟨hfile, hjournal⟩ := Bool.and_eq_true_iff.1 h
    rw [World.stored, Option.isNone_iff_eq_none.1 hfile, List.isEmpty_iff.1 hjournal]
    rfl
  | once p targets limits => exact ⟨trivial, by simpa [alone, InOrder] using h⟩
  | next p stamp =>
    refine ⟨?_, trivial⟩
    rintro limits journal attempted target targets hphase - ⟨messages, key, -, -, -, hkey⟩
    rw [alone, hphase] at h
    have hjournal : journal = [] := List.isEmpty_iff.1 h
    rw [hjournal] at hkey
    cases hkey
  | call | start | send | unroutable | finish | leave => exact ⟨trivial, trivial⟩

/-- A run of a relay that is alone. -/
def aloneAll (w : World) : List Step → Option World
  | [] => some w
  | step :: steps =>
    if alone w step then (perform w step).bind fun w' => aloneAll w' steps else none

theorem steps_of_aloneAll {w' : World} (h : aloneAll w steps = some w') :
    Steps GuardedStep w steps w' ∧ Steps OrderedStep w steps w' := by
  induction steps generalizing w with
  | nil =>
    cases h
    exact ⟨.nil _, .nil _⟩
  | cons step steps ih =>
    rw [aloneAll] at h
    split at h
    · rename_i halone
      obtain ⟨u, hstep, hrest⟩ := Option.bind_eq_some_iff.1 h
      obtain ⟨hguard, horder⟩ := guarded_of_alone halone
      exact ⟨.cons ⟨hguard, hstep⟩ (ih hrest).1, .cons ⟨horder, hguard, hstep⟩ (ih hrest).2⟩
    · cases h

theorem one_relay_sends_once :
    ∃ w : World, w.sentIds = [str "m"] ∧ w.sentIds.Nodup ∧
      World.initial.stored.Grows w.stored ∧
      ∀ target delivery, (w.sentTo target delivery).Pairwise fun a b => a.seq < b.seq := by
  have hrun : (aloneAll World.initial ([.call sampleCall, .start 1] ++ oneRelay 1)).map
      World.sentIds = some [str "m"] := by
    decide +kernel
  obtain ⟨w, hw, hids⟩ := Option.map_eq_some_iff.1 hrun
  obtain ⟨hguarded, hordered⟩ := steps_of_aloneAll hw
  obtain ⟨hnodup, hgrows, horder⟩ := relay_sends_once (.nil _) hguarded
  exact ⟨w, hids, hnodup, hgrows, horder hordered⟩

/-- The second relay is constructed before the first has written the journal. -/
def twoRelays : List Step :=
  [.call sampleCall, .start 1, .start 2] ++ oneRelay 1 ++ oneRelay 2

def performAll (w : World) : List Step → Option World
  | [] => some w
  | step :: steps => (perform w step).bind fun w' => performAll w' steps

theorem steps_of_performAll {w' : World}
    (h : performAll w steps = some w') : Steps Performs w steps w' := by
  induction steps generalizing w with
  | nil =>
    cases h
    exact .nil _
  | cons step steps ih =>
    obtain ⟨u, hstep, hrest⟩ := Option.bind_eq_some_iff.1 h
    exact .cons hstep (ih hrest)

theorem two_relays_send_twice :
    ∃ w, Steps Performs World.initial twoRelays w ∧ ¬w.sentIds.Nodup := by
  have hrun : (performAll World.initial twoRelays).map World.sentIds =
      some [str "m", str "m"] := by
    decide +kernel
  obtain ⟨w, hw, hids⟩ := Option.map_eq_some_iff.1 hrun
  refine ⟨w, steps_of_performAll hw, ?_⟩
  rw [hids, List.nodup_cons]
  exact fun h => h.1 List.mem_cons_self

end Sample

end Relay

end IntegrityGuardian.LlmBus
