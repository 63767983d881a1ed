import IntegrityGuardian.LlmBus.MessageStore

/-!
# Lifecycle of a message

A row is named by its `seq`, which is given out once.  What one transaction can
do to the table is said once, in `exec_cases`; what whole histories preserve
follows by induction over the transactions.
-/

namespace IntegrityGuardian.LlmBus

open Python Library

/-! ## The table -/

structure Store.Sound (s : Store) : Prop where
  ordered : s.rows.Pairwise fun a b => a.seq < b.seq
  le_sequence : ∀ row ∈ s.rows, row.seq ≤ s.sequence
  ids : (s.rows.map Row.id).Nodup

theorem sound_empty : Store.empty.Sound :=
  ⟨.nil, by simp [Store.empty], by simp [Store.empty]⟩

theorem Store.Sound.eq_of_seq {s : Store} (h : s.Sound) {a b : Row} (ha : a ∈ s.rows)
    (hb : b ∈ s.rows) (hseq : a.seq = b.seq) : a = b := by
  have hnodup : (s.rows.map Row.seq).Nodup :=
    (List.pairwise_map.2 h.ordered).imp fun hlt => hlt.ne
  exact List.inj_on_of_nodup_map hnodup ha hb hseq

theorem Store.Sound.eq_of_id {s : Store} (h : s.Sound) {a b : Row} (ha : a ∈ s.rows)
    (hb : b ∈ s.rows) (hid : a.id = b.id) : a = b :=
  List.inj_on_of_nodup_map h.ids ha hb hid

theorem byId_eq_some {s : Store} (h : s.Sound) {row : Row} {id : Str} :
    s.byId id = some row ↔ row ∈ s.rows ∧ row.id = id := by
  unfold Store.byId
  constructor
  · intro hfind
    exact ⟨List.mem_of_find?_eq_some hfind, by simpa using List.find?_some hfind⟩
  · rintro ⟨hmem, rfl⟩
    cases hfind : s.rows.find? fun row' => row'.id = row.id with
    | none =>
      rw [List.find?_eq_none] at hfind
      exact absurd (decide_eq_true rfl) (hfind row hmem)
    | some found =>
      have hid : found.id = row.id := by simpa using List.find?_some hfind
      rw [h.eq_of_id (List.mem_of_find?_eq_some hfind) hmem hid]

theorem byId_eq_none {s : Store} {id : Str} : s.byId id = none ↔ id ∉ s.rows.map Row.id := by
  unfold Store.byId
  rw [List.find?_eq_none]
  simp

theorem mem_prune {now : Int} {s : Store} {row : Row} :
    row ∈ (s.prune now).rows ↔ row ∈ s.rows ∧ now < row.expiresAt := by
  simp [Store.prune]

theorem sound_prune {s : Store} (h : s.Sound) (now : Int) : (s.prune now).Sound where
  ordered := h.ordered.filter _
  le_sequence row hrow := h.le_sequence row (mem_prune.1 hrow).1
  ids := (List.filter_sublist.map Row.id).nodup h.ids

/-! ## Updates -/

/-- An update of the columns around the content. -/
def KeepsContent (change : Row → Row) : Prop :=
  ∀ row, (change row).seq = row.seq ∧ (change row).content = row.content

theorem keepsContent_markReplied (now : Int) : KeepsContent (Row.markReplied now) :=
  fun _ => ⟨rfl, rfl⟩

theorem keepsContent_markAcked (now : Int) : KeepsContent (Row.markAcked now) :=
  fun _ => ⟨rfl, rfl⟩

theorem KeepsContent.id {change : Row → Row} (h : KeepsContent change) (row : Row) :
    (change row).id = row.id :=
  congrArg Content.id (h row).2

theorem mem_update {id : Str} {change : Row → Row} {s : Store} {row' : Row} :
    row' ∈ (s.update id change).rows ↔
      ∃ row ∈ s.rows, row' = if row.id = id then change row else row := by
  simp [Store.update, eq_comm]

theorem sound_update {s : Store} (h : s.Sound) {change : Row → Row} (hkeeps : KeepsContent change)
    (id : Str) : (s.update id change).Sound := by
  have hseq : ∀ row, (if row.id = id then change row else row).seq = row.seq := by
    intro row
    split
    · exact (hkeeps row).1
    · rfl
  have hids : ∀ row, (if row.id = id then change row else row).id = row.id := by
    intro row
    split
    · exact hkeeps.id row
    · rfl
  refine ⟨?_, ?_, ?_⟩
  · rw [Store.update, List.pairwise_map]
    refine h.ordered.imp ?_
    intro a b hab
    rw [hseq, hseq]
    exact hab
  · intro row' hrow'
    obtain ⟨row, hrow, rfl⟩ := mem_update.1 hrow'
    rw [hseq]
    exact h.le_sequence row hrow
  · rw [Store.update, List.map_map]
    have hsame : Row.id ∘ (fun row => if row.id = id then change row else row) = Row.id :=
      funext hids
    rw [hsame]
    exact h.ids

theorem insert_eq_ok {message : Message} {now expiresAt : Int} {s t : Store} :
    s.insert message now expiresAt = .ok t ↔ message.id ∉ s.rows.map Row.id ∧
      t = ⟨s.rows ++ [message.row now expiresAt (s.sequence + 1)], s.sequence + 1⟩ := by
  unfold Store.insert
  split
  · simp_all
  · simp_all [eq_comm]

theorem sound_insert {message : Message} {now expiresAt : Int} {s t : Store} (h : s.Sound)
    (hinsert : s.insert message now expiresAt = .ok t) : t.Sound := by
  obtain ⟨hid, rfl⟩ := insert_eq_ok.1 hinsert
  refine ⟨?_, ?_, ?_⟩
  · rw [List.pairwise_append]
    refine ⟨h.ordered, List.pairwise_singleton _ _, ?_⟩
    intro a ha b hb
    rw [List.mem_singleton.1 hb]
    exact Nat.lt_succ_of_le (h.le_sequence a ha)
  · intro row hrow
    rcases List.mem_append.1 hrow with hrow | hrow
    · exact (h.le_sequence row hrow).trans (Nat.le_succ _)
    · rw [List.mem_singleton.1 hrow]
      exact le_rfl
  · rw [List.map_append, List.nodup_append]
    refine ⟨h.ids, by simp, ?_⟩
    intro id hmem id' hid' heq
    rw [List.map_singleton, List.mem_singleton] at hid'
    exact hid (by rw [heq, hid'] at hmem; exact hmem)

/-! ## What a transaction does -/

theorem answerParent_eq_ok {message : Message} {now : Int} {s t : Store} (hs : s.Sound) :
    answerParent message now s = .ok ((), t) ↔
      (message.replyTo = none ∧ t = s) ∨
        ∃ parent ∈ s.rows, message.replyTo = some parent.id ∧
          parent.recipient = message.sender ∧ parent.sender = message.recipient ∧
          t = s.update parent.id (Row.markReplied now) := by
  unfold answerParent
  cases hreply : message.replyTo with
  | none =>
    rw [Tx.pure_eq_ok]
    simp [eq_comm]
  | some parentId =>
    simp only [Tx.get_bind_eq_ok, Option.some.injEq]
    cases hfind : s.byId parentId with
    | none =>
      rw [byId_eq_none] at hfind
      simp only [Tx.throw_eq_ok, false_iff]
      rintro (⟨h, -⟩ | ⟨parent, hmem, rfl, -⟩)
      · cases h
      · exact hfind (List.mem_map_of_mem hmem)
    | some parent =>
      obtain ⟨hmem, rfl⟩ := (byId_eq_some hs).1 hfind
      dsimp only
      split
      · rename_i hother
        simp only [Tx.throw_eq_ok, false_iff]
        rintro (⟨h, -⟩ | ⟨parent', hmem', hid, hrecipient, hsender, -⟩)
        · cases h
        · rw [hs.eq_of_id hmem hmem' hid] at hother
          exact hother.elim (· hrecipient) (· hsender)
      · rename_i hother
        rw [not_or, not_not, not_not] at hother
        rw [Tx.modify_eq_ok]
        constructor
        · rintro rfl
          exact .inr ⟨parent, hmem, rfl, hother.1, hother.2, rfl⟩
        · rintro (⟨h, -⟩ | ⟨parent', hmem', hid, -, -, rfl⟩)
          · cases h
          · rw [hid]

/-- A message that is stored. -/
def Stored (message : Message) (ttlSeconds now : Int) (s t : Store) : Prop :=
  message.id ∉ (s.prune now).rows.map Row.id ∧
    ((message.replyTo = none ∧
        (s.prune now).insert message now (now + ttlSeconds) = .ok t) ∨
      ∃ parent ∈ (s.prune now).rows, message.replyTo = some parent.id ∧
        parent.recipient = message.sender ∧ parent.sender = message.recipient ∧
        ((s.prune now).update parent.id (Row.markReplied now)).insert message now
          (now + ttlSeconds) = .ok t)

theorem post_eq_ok {message : Message} {ttlSeconds now : Int} {s t : Store} (hs : s.Sound)
    {row : Row} {duplicate : Bool}
    (h : post message ttlSeconds now s = .ok ((row, duplicate), t)) :
    (duplicate = true ∧ t = s.prune now) ∨
      (duplicate = false ∧ Stored message ttlSeconds now s t) := by
  unfold post at h
  rw [Tx.modify_bind_eq_ok, Tx.get_bind_eq_ok] at h
  cases hfind : (s.prune now).byId message.id with
  | some existing =>
    rw [hfind] at h
    dsimp only at h
    split at h
    · obtain ⟨hresult, rfl⟩ := Tx.pure_eq_ok.1 h
      cases hresult
      exact .inl ⟨rfl, rfl⟩
    · exact (Tx.throw_eq_ok.1 h).elim
  | none =>
    rw [hfind] at h
    obtain ⟨⟨⟩, u, hparent, h⟩ := Tx.bind_eq_ok.1 h
    rw [Tx.get_bind_eq_ok] at h
    obtain ⟨v, hinsert, h⟩ := Tx.lift_bind_eq_ok.1 h
    rw [Tx.set_bind_eq_ok] at h
    have hresult : duplicate = false ∧ v = t := by
      cases hrow : v.byId message.id with
      | some stored =>
        rw [hrow] at h
        obtain ⟨hresult, hv⟩ := Tx.pure_eq_ok.1 h
        cases hresult
        exact ⟨rfl, hv⟩
      | none =>
        rw [hrow] at h
        exact (Tx.throw_eq_ok.1 h).elim
    obtain ⟨hduplicate, rfl⟩ := hresult
    refine .inr ⟨hduplicate, byId_eq_none.1 hfind, ?_⟩
    rcases (answerParent_eq_ok (sound_prune hs now)).1 hparent with ⟨hnone, rfl⟩ |
      ⟨parent, hmem, hreply, hrecipient, hsender, rfl⟩
    · exact .inl ⟨hnone, hinsert⟩
    · exact .inr ⟨parent, hmem, hreply, hrecipient, hsender, hinsert⟩

/-- Everything a committed transaction can do to the table. -/
theorem exec_cases {call : Call} {s t : Store} (hs : s.Sound) {reply : Reply}
    (h : exec call s = .ok (reply, t)) :
    t = s ∨ t = s.prune call.now ∨
      (∃ row ∈ (s.prune call.now).rows, call = .ack row.id row.recipient call.now ∧
        row.status = .pending ∧ t = (s.prune call.now).update row.id (Row.markAcked call.now)) ∨
      ∃ value sender agents ttlSeconds message,
        call = .post value sender agents ttlSeconds call.now ∧
        validateMessage value sender agents = .ok message ∧
        Stored message ttlSeconds call.now s t := by
  cases call with
  | post value sender agents ttlSeconds now =>
    obtain ⟨message, hmessage, h⟩ := bind_eq_ok.1 h
    obtain ⟨⟨⟨row, duplicate⟩, u⟩, hpost, h⟩ := bind_eq_ok.1 h
    cases h
    rcases post_eq_ok hs hpost with ⟨-, rfl⟩ | ⟨-, hstored⟩
    · exact .inr (.inl rfl)
    · exact .inr (.inr (.inr ⟨value, sender, agents, ttlSeconds, message, rfl, hmessage, hstored⟩))
  | ack mid recipient now =>
    rw [exec] at h
    obtain ⟨⟨result, u⟩, hack, h⟩ := map_eq_ok.1 h
    cases h
    unfold ack at hack
    rw [Tx.modify_bind_eq_ok, Tx.get_bind_eq_ok] at hack
    cases hfind : (s.prune now).rows.find?
        fun row => row.id = mid ∧ row.recipient = recipient with
    | none =>
      rw [hfind] at hack
      exact .inr (.inl (Tx.pure_eq_ok.1 hack).2.symm)
    | some row =>
      rw [hfind] at hack
      have hmem := List.mem_of_find?_eq_some hfind
      obtain ⟨rfl, rfl⟩ : row.id = mid ∧ row.recipient = recipient := by
        simpa using List.find?_some hfind
      dsimp only at hack
      split at hack
      · rename_i hpending
        rw [Tx.modify_bind_eq_ok, Tx.get_bind_eq_ok] at hack
        exact .inr (.inr (.inl ⟨row, hmem, rfl, hpending, (Tx.pure_eq_ok.1 hack).2.symm⟩))
      · exact .inr (.inl (Tx.pure_eq_ok.1 hack).2.symm)
  | inbox recipient status limit now =>
    rw [exec] at h
    obtain ⟨⟨result, u⟩, hinbox, h⟩ := map_eq_ok.1 h
    cases h
    unfold inbox at hinbox
    rw [Tx.modify_bind_eq_ok, Tx.get_bind_eq_ok] at hinbox
    exact .inr (.inl (Tx.pure_eq_ok.1 hinbox).2.symm)
  | queuePage recipient limit afterSeq now =>
    rw [exec] at h
    obtain ⟨⟨result, u⟩, hpage, h⟩ := map_eq_ok.1 h
    cases h
    unfold queuePage at hpage
    obtain ⟨⟨⟩, -, hpage⟩ := Tx.lift_bind_eq_ok.1 hpage
    obtain ⟨⟨⟩, -, hpage⟩ := Tx.lift_bind_eq_ok.1 hpage
    rw [Tx.get_bind_eq_ok] at hpage
    exact .inl (Tx.pure_eq_ok.1 hpage).2.symm

/-! ## Rows across a transaction -/

theorem sound_stored {message : Message} {ttlSeconds now : Int} {s t : Store} (hs : s.Sound)
    (h : Stored message ttlSeconds now s t) : t.Sound := by
  have hpruned := sound_prune hs now
  rcases h.2 with ⟨-, hinsert⟩ | ⟨parent, -, -, -, -, hinsert⟩
  · exact sound_insert hpruned hinsert
  · exact sound_insert (sound_update hpruned (keepsContent_markReplied now) _) hinsert

theorem sound_exec {call : Call} {s t : Store} (hs : s.Sound) {reply : Reply}
    (h : exec call s = .ok (reply, t)) : t.Sound := by
  rcases exec_cases hs h with rfl | rfl | ⟨row, -, -, -, rfl⟩ |
    ⟨value, sender, agents, ttlSeconds, message, -, -, hstored⟩
  · exact hs
  · exact sound_prune hs _
  · exact sound_update (sound_prune hs _) (keepsContent_markAcked _) _
  · exact sound_stored hs hstored

theorem sound_run (calls : List Call) : (run exec .empty calls).Sound :=
  run_invariant (fun _ _ _ _ hs h => sound_exec hs h) sound_empty calls

/-- How the status of a row can change: acknowledged by its recipient, or replied
to by a message that the same transaction stores. -/
def StatusMove (call : Call) (s t : Store) (row row' : Row) : Prop :=
  row'.status = row.status ∨
    (row.status = .pending ∧ row'.status = .acked ∧ call = .ack row.id row.recipient call.now) ∨
    (row.status ≠ .replied ∧ row'.status = .replied ∧
      ∃ value sender agents ttlSeconds message,
        call = .post value sender agents ttlSeconds call.now ∧
        validateMessage value sender agents = .ok message ∧
        message.sender = row.recipient ∧ message.recipient = row.sender ∧
        message.replyTo = some row.id ∧
        message.row call.now (call.now + ttlSeconds) (s.sequence + 1) ∈ t.rows)

/-- Where the rows after a transaction come from. -/
def Follows (call : Call) (s t : Store) : Prop :=
  (∀ row' ∈ t.rows, s.sequence < row'.seq ∨
    ∃ row ∈ s.rows, row'.seq = row.seq ∧ row'.content = row.content ∧ StatusMove call s t row row') ∧
  (∀ row ∈ s.rows, row.expiresAt ≤ call.now ∨ ∃ row' ∈ t.rows, row'.seq = row.seq) ∧
  s.sequence ≤ t.sequence

theorem follows_prune (call : Call) (s : Store) : Follows call s (s.prune call.now) := by
  refine ⟨?_, ?_, le_rfl⟩
  · intro row hrow
    exact .inr ⟨row, (mem_prune.1 hrow).1, rfl, rfl, .inl rfl⟩
  · intro row hrow
    by_cases hexpired : row.expiresAt ≤ call.now
    · exact .inl hexpired
    · exact .inr ⟨row, mem_prune.2 ⟨hrow, Int.not_le.1 hexpired⟩, rfl⟩

theorem follows_update {call : Call} {s t : Store} (hs : s.Sound) {target : Row}
    {change : Row → Row} (htarget : target ∈ (s.prune call.now).rows)
    (hkeeps : KeepsContent change)
    (hrows : ∀ row', row' ∈ t.rows → s.sequence < row'.seq ∨
      row' ∈ ((s.prune call.now).update target.id change).rows)
    (hkept : ∀ row' ∈ ((s.prune call.now).update target.id change).rows, row' ∈ t.rows)
    (hsequence : s.sequence ≤ t.sequence)
    (hmove : StatusMove call s t target (change target)) : Follows call s t := by
  refine ⟨?_, ?_, hsequence⟩
  · intro row' hrow'
    rcases hrows row' hrow' with hnew | hold
    · exact .inl hnew
    · obtain ⟨row, hrow, rfl⟩ := mem_update.1 hold
      refine .inr ⟨row, (mem_prune.1 hrow).1, ?_⟩
      by_cases hid : row.id = target.id
      · rw [if_pos hid, (sound_prune hs _).eq_of_id hrow htarget hid]
        exact ⟨(hkeeps target).1, (hkeeps target).2, hmove⟩
      · rw [if_neg hid]
        exact ⟨rfl, rfl, .inl rfl⟩
  · intro row hrow
    by_cases hexpired : row.expiresAt ≤ call.now
    · exact .inl hexpired
    · have hpruned := mem_prune.2 ⟨hrow, Int.not_le.1 hexpired⟩
      refine .inr ⟨_, hkept _ (mem_update.2 ⟨row, hpruned, rfl⟩), ?_⟩
      split
      · exact (hkeeps row).1
      · rfl

theorem follows_exec {call : Call} {s t : Store} (hs : s.Sound) {reply : Reply}
    (h : exec call s = .ok (reply, t)) : Follows call s t := by
  rcases exec_cases hs h with rfl | rfl | ⟨row, hrow, hcall, hpending, rfl⟩ |
    ⟨value, sender, agents, ttlSeconds, message, hcall, hmessage, -,
      ⟨-, hinsert⟩ | ⟨parent, hparent, hreply, hrecipient, hsender, hinsert⟩⟩
  · exact ⟨fun row hrow => .inr ⟨row, hrow, rfl, rfl, .inl rfl⟩,
      fun row hrow => .inr ⟨row, hrow, rfl⟩, le_rfl⟩
  · exact follows_prune call s
  · exact follows_update hs hrow (keepsContent_markAcked _) (fun _ => .inr) (fun _ => id) le_rfl
      (.inr (.inl ⟨hpending, rfl, hcall⟩))
  · obtain ⟨-, rfl⟩ := insert_eq_ok.1 hinsert
    obtain ⟨hfrom, hkept, -⟩ := follows_prune call s
    refine ⟨?_, ?_, Nat.le_succ _⟩
    · intro row' hrow'
      rcases List.mem_append.1 hrow' with hrow' | hrow'
      · exact .inr ⟨row', (mem_prune.1 hrow').1, rfl, rfl, .inl rfl⟩
      · rw [List.mem_singleton.1 hrow']
        exact .inl (Nat.lt_succ_self _)
    · intro row hrow
      refine (hkept row hrow).imp_right ?_
      rintro ⟨row', hrow', hseq⟩
      exact ⟨row', List.mem_append_left _ hrow', hseq⟩
  · obtain ⟨-, rfl⟩ := insert_eq_ok.1 hinsert
    refine follows_update hs hparent (keepsContent_markReplied call.now) ?_
      (fun row' hrow' => List.mem_append_left _ hrow') (Nat.le_succ _) ?_
    · intro row' hrow'
      rcases List.mem_append.1 hrow' with hrow' | hrow'
      · exact .inr hrow'
      · rw [List.mem_singleton.1 hrow']
        exact .inl (Nat.lt_succ_self _)
    · by_cases hreplied : parent.status = .replied
      · exact .inl hreplied.symm
      · exact .inr (.inr ⟨hreplied, rfl, value, sender, agents, ttlSeconds, message, hcall, hmessage,
          hrecipient.symm, hsender.symm, hreply, List.mem_append_right _ (List.mem_singleton.2 rfl)⟩)

/-! ## Whole histories -/

/-- The order `pending`, `acked`, `replied`. -/
def Status.rank : Status → Nat
  | .pending => 0
  | .acked => 1
  | .replied => 2

theorem StatusMove.rank_le {call : Call} {s t : Store} {row row' : Row}
    (h : StatusMove call s t row row') : row.status.rank ≤ row'.status.rank := by
  rcases h with hsame | ⟨hpending, -⟩ | ⟨-, hreplied, -⟩
  · rw [hsame]
  · rw [hpending]
    exact Nat.zero_le _
  · rw [hreplied]
    cases row.status <;> decide

/-- Every row of `u` that was given out by the time of `s` is a row of `s`. -/
def Descends (s u : Store) : Prop :=
  s.sequence ≤ u.sequence ∧ ∀ row' ∈ u.rows, row'.seq ≤ s.sequence →
    ∃ row ∈ s.rows, row'.seq = row.seq ∧ row'.content = row.content ∧
      row.status.rank ≤ row'.status.rank

theorem Descends.trans {s t u : Store} (h : Descends s t) (h' : Descends t u) : Descends s u := by
  refine ⟨h.1.trans h'.1, ?_⟩
  intro row'' hrow'' hseq
  obtain ⟨row', hrow', hseq', hcontent', hrank'⟩ := h'.2 row'' hrow'' (hseq.trans h.1)
  obtain ⟨row, hrow, hseq'', hcontent, hrank⟩ := h.2 row' hrow' (hseq' ▸ hseq)
  exact ⟨row, hrow, hseq'.trans hseq'', hcontent'.trans hcontent, hrank.trans hrank'⟩

theorem descends_run {s : Store} (hs : s.Sound) (calls : List Call) :
    Descends s (run exec s calls) := by
  refine @run_relates _ _ _ _ exec Store.Sound Descends (fun s => ?_)
    (fun _ _ _ => Descends.trans) ?_ _ hs calls
  · exact ⟨le_rfl, fun row hrow _ => ⟨row, hrow, rfl, rfl, le_rfl⟩⟩
  · intro s call reply t hs h
    obtain ⟨hfrom, -, hsequence⟩ := follows_exec hs h
    refine ⟨sound_exec hs h, hsequence, ?_⟩
    intro row' hrow' hseq
    rcases hfrom row' hrow' with hnew | ⟨row, hrow, hsame, hcontent, hmove⟩
    · omega
    · exact ⟨row, hrow, hsame, hcontent, hmove.rank_le⟩

theorem post_again {s : Store} (hs : s.Sound) {row : Row} (hrow : row ∈ s.rows) (message : Message)
    (hid : row.id = message.id) (ttlSeconds : Int) {now : Int} (hnow : now < row.expiresAt) :
    post message ttlSeconds now s =
      if row.same message then .ok ((row, true), s.prune now)
      else .error (.fileExistsError (str "message id is already used for different content")) := by
  have hfind : (s.prune now).byId message.id = some row :=
    (byId_eq_some (sound_prune hs now)).2 ⟨mem_prune.2 ⟨hrow, hnow⟩, hid⟩
  have hread (f : Store → Tx Store Error (Row × Bool)) :
      (do modify (Store.prune now); f (← get) : Tx _ _ _) s = f (s.prune now) (s.prune now) := rfl
  rw [post, hread, hfind]
  dsimp only
  split <;> rfl

/-- For every history of transactions with any clock readings: the content of a
row never changes and its status only grows; a row disappears only when it has
expired; its status changes only by its recipient's `ack` or by a reply stored in
the same transaction; posting the same content again reports a duplicate and only
prunes, other content is refused; and a refused post changes nothing. -/
theorem message_store_safe (past future : List Call) (call : Call) :
    (∀ row ∈ (run exec .empty past).rows, ∀ row' ∈ (run exec .empty (past ++ future)).rows,
      row'.seq = row.seq → row'.content = row.content ∧ row.status.rank ≤ row'.status.rank) ∧
    (∀ row ∈ (run exec .empty past).rows,
      row.expiresAt ≤ call.now ∨
        ∃ row' ∈ (after exec (run exec .empty past) call).rows, row'.seq = row.seq) ∧
    (∀ row ∈ (run exec .empty past).rows,
      ∀ row' ∈ (after exec (run exec .empty past) call).rows, row'.seq = row.seq →
        StatusMove call (run exec .empty past) (after exec (run exec .empty past) call) row row') ∧
    (∀ row ∈ (run exec .empty past).rows, ∀ (message : Message) (ttlSeconds now : Int),
      row.id = message.id → now < row.expiresAt →
      post message ttlSeconds now (run exec .empty past) =
        if row.sender = message.sender ∧ row.recipient = message.recipient ∧
            row.body = message.body ∧ row.replyTo = message.replyTo ∧
            row.delivery = message.delivery then
          .ok ((row, true), (run exec .empty past).prune now)
        else .error (.fileExistsError (str "message id is already used for different content"))) ∧
    ((∃ e, exec call (run exec .empty past) = .error e) →
      after exec (run exec .empty past) call = run exec .empty past) := by
  have hs := sound_run past
  refine ⟨?_, ?_, ?_, ?_, ?_⟩
  · intro row hrow row' hrow' hseq
    rw [run_append] at hrow'
    have hle : row'.seq ≤ (run exec .empty past).sequence := hseq ▸ hs.le_sequence row hrow
    obtain ⟨origin, horigin, hsame, hcontent, hrank⟩ := (descends_run hs future).2 row' hrow' hle
    have heq := hs.eq_of_seq horigin hrow (hsame.symm.trans hseq)
    exact heq ▸ ⟨hcontent, hrank⟩
  · intro row hrow
    rcases after_cases exec (run exec .empty past) call with ⟨reply, h⟩ | ⟨-, h⟩
    · exact (follows_exec hs h).2.1 row hrow
    · rw [h]
      exact .inr ⟨row, hrow, rfl⟩
  · intro row hrow row' hrow' hseq
    rcases after_cases exec (run exec .empty past) call with ⟨reply, h⟩ | ⟨-, h⟩
    · rcases (follows_exec hs h).1 row' hrow' with hnew | ⟨origin, horigin, hsame, -, hmove⟩
      · have hle := hs.le_sequence row hrow
        omega
      · have heq := hs.eq_of_seq horigin hrow (hsame.symm.trans hseq)
        exact heq ▸ hmove
    · rw [h] at hrow'
      exact .inl (by rw [hs.eq_of_seq hrow' hrow hseq])
  · intro row hrow message ttlSeconds now hid hnow
    rw [post_again hs hrow message hid ttlSeconds hnow]
    simp [Row.same]
  · rintro ⟨e, he⟩
    simp [after, he]

example :
    (run exec .empty
      [.post (Json.fields [("id", .str (str "a")), ("from", .str (str "grok")),
          ("to", .str (str "codex")), ("body", .str (str "x")), ("reply_to", .null)])
          (str "grok") [str "codex", str "grok"] 60 0,
        .ack (str "a") (str "codex") 1,
        .post (Json.fields [("id", .str (str "b")), ("from", .str (str "codex")),
          ("to", .str (str "grok")), ("body", .str (str "y")), ("reply_to", .str (str "a"))])
          (str "codex") [str "codex", str "grok"] 60 2]).rows.map (fun row => (row.seq, row.status)) =
      [(1, .replied), (2, .pending)] := by
  decide +kernel

end IntegrityGuardian.LlmBus
