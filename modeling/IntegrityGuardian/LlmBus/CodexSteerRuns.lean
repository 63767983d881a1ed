import IntegrityGuardian.LlmBus.CodexSteer
import Mathlib.Data.List.Induction

/-!
# Every pointer moves once

A pointer that `stage` has accepted waits in the file until it is handed out, and
is handed out once, as long as no save cuts off a waiting entry and no key comes
back after its entry was cut off.
-/

namespace IntegrityGuardian.LlmBus.CodexSteer

open Python

/-! ## What is promised -/

/-- A call of `stage` whose key is in the file, or whose text cannot be written, or
that accepts a new key and cuts off no waiting entry. -/
def Guarded (w : World) : Call → Prop
  | .stage key ids text now =>
    key ∈ w.entries.map Entry.key ∨ (newEntry key ids text now).encodable = false ∨
      (key ∉ w.accepted.map Prod.fst ∧
        ∀ entry ∈ w.entries.take (w.entries.length + 1 - maxEntries), entry.state ≠ .staged)
  | _ => True

/-- Every key is accepted once and handed out at most once, and until then its text
is what the next hook is given. -/
structure Delivers (w : World) : Prop where
  acceptedOnce : (w.accepted.map Prod.fst).Nodup
  handedOnce : w.handed.Nodup
  waiting : ∀ key text, (key, text) ∈ w.accepted → key ∉ w.handed →
    ∃ entry ∈ w.entries, entry.key = key ∧ entry.text = text ∧ entry.state = .staged
  next : ∀ key text, (key, text) ∈ w.accepted → key ∉ w.handed →
    ∀ turnId now texts file, takeForHook turnId now w.file = .ok (texts, file) → text ∈ texts

/-- What holds of the world of a guarded history. -/
structure Sound (w : World) : Prop where
  nodup : (w.entries.map Entry.key).Nodup
  length_le : w.entries.length ≤ maxEntries
  encodable : ∀ entry ∈ w.entries, entry.encodable = true
  accepted : ∀ entry ∈ w.entries, entry.key ∈ w.accepted.map Prod.fst
  handed : ∀ key ∈ w.handed, key ∈ w.accepted.map Prod.fst
  staged : ∀ entry ∈ w.entries, entry.state = .staged →
    (entry.key, entry.text) ∈ w.accepted ∧ entry.key ∉ w.handed
  acceptedOnce : (w.accepted.map Prod.fst).Nodup
  handedOnce : w.handed.Nodup
  waiting : ∀ key text, (key, text) ∈ w.accepted → key ∉ w.handed →
    ∃ entry ∈ w.entries, entry.key = key ∧ entry.text = text ∧ entry.state = .staged

variable {entry : Entry} {now : Int} {entries : List Entry}

theorem text_mem_of_takeForHook {turnId : Option Str} {file file' : File}
    {texts : List Str} (h : takeForHook turnId now file = .ok (texts, file'))
    (hentry : entry ∈ load file) (hstate : entry.state = .staged) : entry.text ∈ texts := by
  have hwaiting : entry.text ∈ (CodexSteer.waiting (load file)).map Entry.text :=
    List.mem_map_of_mem (List.mem_filter.2 ⟨hentry, by simpa using hstate⟩)
  unfold takeForHook at h
  by_cases hnone : (CodexSteer.waiting (load file)).map Entry.text = []
  · rw [hnone] at hwaiting
    cases hwaiting
  · simp only [if_neg hnone] at h
    cases hsave : save ((load file).map (steer turnId now)) with
    | error e =>
      rw [hsave] at h
      cases h
    | ok saved =>
      rw [hsave] at h
      cases h
      exact hwaiting

theorem Sound.delivers {w : World} (h : Sound w) : Delivers w where
  acceptedOnce := h.acceptedOnce
  handedOnce := h.handedOnce
  waiting := h.waiting
  next key text haccepted hhanded turnId now texts file hhook := by
    obtain ⟨entry, hentry, -, rfl, hstate⟩ := h.waiting key text haccepted hhanded
    exact text_mem_of_takeForHook hhook hentry hstate

theorem Sound.start : Sound World.start := by
  constructor <;> simp [World.start, World.entries, load, maxEntries]

/-! ## Cutting the file -/

theorem newest_eq_self (h : entries.length ≤ maxEntries) : newest entries = entries := by
  unfold newest
  rw [Nat.sub_eq_zero_of_le h, List.drop_zero]

theorem newest_append (entry : Entry) (h : entries.length ≤ maxEntries) :
    newest (entries ++ [entry]) =
      entries.drop (entries.length + 1 - maxEntries) ++ [entry] := by
  have hle : entries.length + 1 - maxEntries ≤ entries.length := by
    simp only [maxEntries] at *
    omega
  unfold newest
  rw [List.length_append, List.length_singleton, List.drop_append_of_le_length hle]

theorem mem_drop_of_kept {n : Nat}
    (h : entry ∈ entries) (hkept : entry ∉ entries.take n) : entry ∈ entries.drop n := by
  rw [← List.take_append_drop n entries, List.mem_append] at h
  exact h.resolve_left hkept

/-! ## Entries that move -/

theorem steer_key (turnId : Option Str) (now : Int) (entry : Entry) :
    (steer turnId now entry).key = entry.key ∧
      (steer turnId now entry).state ≠ .staged := by
  unfold steer
  split
  · simp
  · rename_i hstate
    exact ⟨rfl, hstate⟩

theorem keys_steer (turnId : Option Str) (now : Int) (entries : List Entry) :
    (entries.map (steer turnId now)).map Entry.key = entries.map Entry.key := by
  rw [List.map_map]
  exact List.map_congr_left fun entry _ => (steer_key turnId now entry).1

theorem keys_queueFirst (key : Str) (now : Int) (entries : List Entry) :
    (queueFirst key now entries).map Entry.key = entries.map Entry.key := by
  induction entries with
  | nil => rfl
  | cons entry entries ih =>
    rw [queueFirst]
    split
    · rfl
    · rw [List.map_cons, ih, List.map_cons]

theorem mem_queueFirst {key : Str}
    (hnodup : (entries.map Entry.key).Nodup) (hstate : entry.state = .staged) :
    entry ∈ queueFirst key now entries ↔ entry ∈ entries ∧ entry.key ≠ key := by
  induction entries with
  | nil => simp [queueFirst]
  | cons first entries ih =>
    rw [List.map_cons, List.nodup_cons] at hnodup
    obtain ⟨hfirst, hrest⟩ := hnodup
    rw [queueFirst]
    by_cases htakes : takes key first = true
    · rw [if_pos htakes]
      have hkey : first.key = key ∧ first.state = .staged := by simpa [takes] using htakes
      constructor
      · intro h
        rcases List.mem_cons.1 h with rfl | h
        · simp at hstate
        · refine ⟨List.mem_cons_of_mem _ h, ?_⟩
          intro heq
          apply hfirst
          rw [hkey.1, ← heq]
          exact List.mem_map_of_mem h
      · rintro ⟨h, hne⟩
        rcases List.mem_cons.1 h with rfl | h
        · exact absurd hkey.1 hne
        · exact List.mem_cons_of_mem _ h
    · rw [if_neg htakes, List.mem_cons, ih hrest, List.mem_cons]
      constructor
      · rintro (rfl | ⟨h, hne⟩)
        · refine ⟨.inl rfl, ?_⟩
          intro heq
          exact htakes (by simp [takes, heq, hstate])
        · exact ⟨.inr h, hne⟩
      · rintro ⟨rfl | h, hne⟩
        · exact .inl rfl
        · exact .inr ⟨h, hne⟩

/-! ## Steps -/

variable {w w' : World} {call : Call}

variable {now : Int} {key : Str}

/-- A new pointer is accepted and cuts off no waiting entry. -/
theorem Sound.afterStage (h : Sound w) {ids : List Str} {text : Str}
    (hguarded : Guarded w (.stage key ids text now)) (hnew : key ∉ w.entries.map Entry.key)
    (hencodable : ∀ entry ∈ newest (w.entries ++ [newEntry key ids text now]),
      entry.encodable = true) : Sound ⟨some (newest (w.entries ++ [newEntry key ids text now])),
      w.accepted ++ [(key, text)], w.handed⟩ := by
  have hlast : newEntry key ids text now ∈
      newest (w.entries ++ [newEntry key ids text now]) := by
    rw [newest_append _ h.length_le]
    simp
  obtain ⟨hfresh, hcut⟩ : key ∉ w.accepted.map Prod.fst ∧
      ∀ entry ∈ w.entries.take (w.entries.length + 1 - maxEntries),
        entry.state ≠ .staged := by
    rcases hguarded with hknown | hbad | hguarded
    · exact absurd hknown hnew
    · rw [hencodable _ hlast] at hbad
      cases hbad
    · exact hguarded
  have hentries : ∀ entry, entry ∈ newest (w.entries ++ [newEntry key ids text now]) ↔
      entry ∈ w.entries.drop (w.entries.length + 1 - maxEntries) ∨
        entry = newEntry key ids text now := by
    intro entry
    rw [newest_append _ h.length_le, List.mem_append, List.mem_singleton]
  have hfreshHanded : key ∉ w.handed := fun hmem => hfresh (h.handed key hmem)
  constructor
  · show ((newest _).map Entry.key).Nodup
    unfold newest
    rw [List.map_drop]
    refine List.Nodup.sublist (List.drop_sublist _ _) ?_
    rw [List.map_append, List.map_singleton, List.nodup_append]
    refine ⟨h.nodup, List.nodup_singleton _, ?_⟩
    rintro k hmem _ hkey rfl
    have hsame : k = key := List.mem_singleton.1 hkey
    rw [hsame] at hmem
    exact hnew hmem
  · show (newest _).length ≤ maxEntries
    unfold newest
    rw [List.length_drop]
    omega
  · exact hencodable
  · intro entry hentry
    rw [List.map_append, List.mem_append]
    rcases (hentries entry).1 hentry with hold | rfl
    · exact .inl (h.accepted entry (List.mem_of_mem_drop hold))
    · exact .inr (by simp [newEntry])
  · intro k hk
    rw [List.map_append, List.mem_append]
    exact .inl (h.handed k hk)
  · intro entry hentry hstate
    rcases (hentries entry).1 hentry with hold | rfl
    · obtain ⟨haccepted, hhanded⟩ := h.staged entry (List.mem_of_mem_drop hold) hstate
      exact ⟨List.mem_append_left _ haccepted, hhanded⟩
    · exact ⟨by simp [newEntry], hfreshHanded⟩
  · rw [List.map_append, List.map_singleton, List.nodup_append]
    refine ⟨h.acceptedOnce, List.nodup_singleton _, ?_⟩
    rintro k hmem _ hkey rfl
    have hsame : k = key := List.mem_singleton.1 hkey
    rw [hsame] at hmem
    exact hfresh hmem
  · exact h.handedOnce
  · intro k t hmem hhanded
    rcases List.mem_append.1 hmem with hold | hnow
    · obtain ⟨entry, hentry, hkey, htext, hstate⟩ := h.waiting k t hold hhanded
      refine ⟨entry, (hentries entry).2 (.inl ?_), hkey, htext, hstate⟩
      exact mem_drop_of_kept hentry fun hlost => hcut entry hlost hstate
    · cases List.mem_singleton.1 hnow
      exact ⟨newEntry key ids text now, hlast, rfl, rfl, rfl⟩

/-- A hook takes every waiting entry. -/
theorem Sound.afterHook (h : Sound w) {turnId : Option Str}
    (hencodable : ∀ entry ∈ newest (w.entries.map (steer turnId now)), entry.encodable = true) :
    Sound ⟨some (newest (w.entries.map (steer turnId now))), w.accepted,
      w.handed ++ (CodexSteer.waiting w.entries).map Entry.key⟩ := by
  have hnewest : newest (w.entries.map (steer turnId now)) =
      w.entries.map (steer turnId now) :=
    newest_eq_self (by rw [List.length_map]; exact h.length_le)
  rw [hnewest] at hencodable ⊢
  have hnone : ∀ entry ∈ w.entries.map (steer turnId now), entry.state ≠ .staged := by
    intro entry hentry
    obtain ⟨old, -, rfl⟩ := List.mem_map.1 hentry
    exact (steer_key turnId now old).2
  have hclaimed : ∀ key, key ∈ (CodexSteer.waiting w.entries).map Entry.key ↔
      ∃ entry ∈ w.entries, entry.key = key ∧ entry.state = .staged := by
    intro key
    simp only [List.mem_map, CodexSteer.waiting, List.mem_filter, decide_eq_true_eq]
    constructor
    · rintro ⟨entry, ⟨hentry, hstate⟩, hkey⟩
      exact ⟨entry, hentry, hkey, hstate⟩
    · rintro ⟨entry, hentry, hkey, hstate⟩
      exact ⟨entry, ⟨hentry, hstate⟩, hkey⟩
  constructor
  · show ((w.entries.map (steer turnId now)).map Entry.key).Nodup
    rw [keys_steer]
    exact h.nodup
  · show (w.entries.map (steer turnId now)).length ≤ maxEntries
    rw [List.length_map]
    exact h.length_le
  · exact hencodable
  · intro entry hentry
    obtain ⟨old, hold, rfl⟩ := List.mem_map.1 hentry
    rw [(steer_key turnId now old).1]
    exact h.accepted old hold
  · intro key hkey
    rcases List.mem_append.1 hkey with hold | hnow
    · exact h.handed key hold
    · obtain ⟨entry, hentry, rfl, -⟩ := (hclaimed key).1 hnow
      exact h.accepted entry hentry
  · intro entry hentry hstate
    exact absurd hstate (hnone entry hentry)
  · exact h.acceptedOnce
  · rw [List.nodup_append]
    refine ⟨h.handedOnce, ?_, ?_⟩
    · exact h.nodup.sublist (List.filter_sublist.map Entry.key)
    · rintro key hkey _ hnow rfl
      obtain ⟨entry, hentry, rfl, hstate⟩ := (hclaimed key).1 hnow
      exact (h.staged entry hentry hstate).2 hkey
  · intro key text haccepted hhanded
    rw [List.mem_append, not_or] at hhanded
    obtain ⟨entry, hentry, hkey, -, hstate⟩ := h.waiting key text haccepted hhanded.1
    exact absurd ((hclaimed key).2 ⟨entry, hentry, hkey, hstate⟩) hhanded.2

/-- The queue takes one waiting entry. -/
theorem Sound.afterQueue (h : Sound w) {entry : Entry}
    (hentry : w.entries.find? (takes key) = some entry)
    (hencodable : ∀ entry ∈ newest (queueFirst key now w.entries), entry.encodable = true) :
    Sound ⟨some (newest (queueFirst key now w.entries)), w.accepted, w.handed ++ [key]⟩ := by
  obtain ⟨hkey, hstate⟩ : entry.key = key ∧ entry.state = .staged := by
    simpa [takes] using List.find?_some hentry
  have hmem := List.mem_of_find?_eq_some hentry
  have hlength : (queueFirst key now w.entries).length = w.entries.length := by
    simpa using congrArg List.length (keys_queueFirst key now w.entries)
  have hnewest : newest (queueFirst key now w.entries) = queueFirst key now w.entries :=
    newest_eq_self (by rw [hlength]; exact h.length_le)
  rw [hnewest] at hencodable ⊢
  constructor
  · show ((queueFirst key now w.entries).map Entry.key).Nodup
    rw [keys_queueFirst]
    exact h.nodup
  · show (queueFirst key now w.entries).length ≤ maxEntries
    rw [hlength]
    exact h.length_le
  · exact hencodable
  · intro other hother
    have hkeys : other.key ∈ (queueFirst key now w.entries).map Entry.key :=
      List.mem_map_of_mem hother
    rw [keys_queueFirst] at hkeys
    obtain ⟨old, hold, hsame⟩ := List.mem_map.1 hkeys
    rw [← hsame]
    exact h.accepted old hold
  · intro k hk
    rcases List.mem_append.1 hk with hold | hnow
    · exact h.handed k hold
    · rw [List.mem_singleton.1 hnow, ← hkey]
      exact h.accepted entry hmem
  · intro other hother hstaged
    obtain ⟨hold, hne⟩ := (mem_queueFirst h.nodup hstaged).1 hother
    obtain ⟨haccepted, hhanded⟩ := h.staged other hold hstaged
    refine ⟨haccepted, ?_⟩
    rw [List.mem_append, List.mem_singleton, not_or]
    exact ⟨hhanded, hne⟩
  · exact h.acceptedOnce
  · rw [List.nodup_append]
    refine ⟨h.handedOnce, List.nodup_singleton _, ?_⟩
    rintro k hk _ hnow rfl
    rw [List.mem_singleton.1 hnow, ← hkey] at hk
    exact (h.staged entry hmem hstate).2 hk
  · intro k text haccepted hhanded
    rw [List.mem_append, List.mem_singleton, not_or] at hhanded
    obtain ⟨other, hother, rfl, htext, hstaged⟩ := h.waiting k text haccepted hhanded.1
    exact ⟨other, (mem_queueFirst h.nodup hstaged).2 ⟨hother, hhanded.2⟩, rfl, htext, hstaged⟩

theorem Sound.change (h : Sound w) (hguarded : Guarded w call) (hchange : Change w call w') :
    Sound w' := by
  cases hchange with
  | none => exact h
  | staged hnew hencodable => exact h.afterStage hguarded hnew hencodable
  | steered hencodable => exact h.afterHook hencodable
  | queued hentry hencodable => exact h.afterQueue hentry hencodable

/-- A call that leaves the promise intact was guarded. -/
theorem Sound.guarded (h : Sound w) (hdelivers : Delivers (w.step call)) : Guarded w call := by
  cases call with
  | takeForHook turnId now => trivial
  | takeForQueue key now => trivial
  | interrupted => trivial
  | stage key ids text now =>
    by_contra hnot
    simp only [Guarded, not_or, Bool.not_eq_false] at hnot
    obtain ⟨hnew, hencodable, hthird⟩ := hnot
    have hsaved : save (w.entries ++ [newEntry key ids text now]) =
        .ok (some (newest (w.entries ++ [newEntry key ids text now]))) := by
      unfold save
      rw [if_pos]
      rw [List.all_eq_true]
      intro entry hentry
      rw [newest_append _ h.length_le, List.mem_append, List.mem_singleton] at hentry
      rcases hentry with hold | rfl
      · exact h.encodable entry (List.mem_of_mem_drop hold)
      · exact hencodable
    have hstage : stage key ids text now w.file =
        .ok (true, some (newest (w.entries ++ [newEntry key ids text now]))) := by
      have hnew' : key ∉ (load w.file).map Entry.key := hnew
      unfold stage
      rw [if_neg hnew']
      exact Library.bind_eq_ok.2 ⟨_, hsaved, rfl⟩
    have hstep : w.step (.stage key ids text now) =
        ⟨some (newest (w.entries ++ [newEntry key ids text now])),
          w.accepted ++ [(key, text)], w.handed⟩ := by
      simp only [World.step, hstage]
    rw [hstep] at hdelivers
    apply hthird
    constructor
    · intro hold
      have hnodup := hdelivers.acceptedOnce
      rw [List.map_append, List.map_singleton, List.nodup_append] at hnodup
      exact hnodup.2.2 key hold key (by simp) rfl
    · intro entry hlost hstate
      obtain ⟨haccepted, hhanded⟩ := h.staged entry (List.mem_of_mem_take hlost) hstate
      obtain ⟨other, hother, hkey, -, -⟩ :=
        hdelivers.waiting entry.key entry.text (List.mem_append_left _ haccepted) hhanded
      have hnodup := h.nodup
      rw [← List.take_append_drop (w.entries.length + 1 - maxEntries) w.entries,
        List.map_append, List.nodup_append] at hnodup
      have hother' : other ∈ newest (w.entries ++ [newEntry key ids text now]) := hother
      rw [newest_append _ h.length_le, List.mem_append, List.mem_singleton] at hother'
      rcases hother' with hold | rfl
      · exact hnodup.2.2 entry.key (List.mem_map_of_mem hlost) other.key
          (List.mem_map_of_mem hold) hkey.symm
      · apply hnew
        rw [show key = entry.key from hkey]
        exact List.mem_map_of_mem (List.mem_of_mem_take hlost)

/-! ## Histories -/

theorem run_snoc (calls : List Call) (call : Call) :
    World.run (calls ++ [call]) = (World.run calls).step call := by
  simp [World.run]

theorem run_sound {calls : List Call}
    (hguarded : ∀ before call after, calls = before ++ call :: after →
      Guarded (World.run before) call) : Sound (World.run calls) := by
  induction calls using List.reverseRecOn with
  | nil => exact Sound.start
  | append_singleton calls call ih =>
    rw [run_snoc]
    have hbefore : Sound (World.run calls) := by
      apply ih
      rintro before call' after rfl
      exact hguarded before call' (after ++ [call]) (by simp)
    exact hbefore.change (hguarded calls call [] rfl) (change_step _ call)

/-- Pointers are delivered exactly once throughout a history exactly when every
call of it is guarded. -/
theorem pointers_delivered_once_iff (calls : List Call) :
    (∀ before after, calls = before ++ after → Delivers (World.run before)) ↔
      ∀ before call after, calls = before ++ call :: after → Guarded (World.run before) call := by
  constructor
  · intro hdelivers
    induction calls using List.reverseRecOn with
    | nil =>
      intro before call after heq
      simp at heq
    | append_singleton calls last ih =>
      have hguarded := ih fun before after heq =>
        hdelivers before (after ++ [last]) (by rw [heq, List.append_assoc])
      intro before call after heq
      rcases List.eq_nil_or_concat after with rfl | ⟨after, final, rfl⟩
      · obtain ⟨rfl, hlast⟩ := List.append_inj' heq rfl
        cases hlast
        apply (run_sound hguarded).guarded
        rw [← run_snoc]
        exact hdelivers _ [] (by simp)
      · have hsplit : calls ++ [last] = (before ++ call :: after) ++ [final] := by
          simpa using heq
        obtain ⟨rfl, -⟩ := List.append_inj' hsplit rfl
        exact hguarded before call after rfl
  · rintro hguarded before after rfl
    apply Sound.delivers
    apply run_sound
    rintro earlier call later rfl
    exact hguarded earlier call (later ++ after) (by simp)

/-! ## A pointer that is cut off -/

/-- Fifty-one pointers, no hook between them. -/
def flood : List Call :=
  (List.range 51).map fun n => .stage [Json.ch 'k', Json.ch (Char.ofNat (48 + n))] [] [] 0

theorem flood_evaluated :
    (str "k0", []) ∈ (World.run flood).accepted ∧ (World.run flood).handed = [] ∧
      ∀ entry ∈ (World.run flood).entries, entry.key ≠ str "k0" := by
  decide +kernel

/-- The first pointer of a flood is accepted, and it is lost before any hook. -/
theorem flood_loses_pointer : ¬Delivers (World.run flood) := by
  obtain ⟨haccepted, hhanded, hlost⟩ := flood_evaluated
  intro h
  have hnone : str "k0" ∉ (World.run flood).handed := by
    rw [hhanded]
    exact List.not_mem_nil
  obtain ⟨entry, hentry, hkey, -⟩ := h.waiting _ _ haccepted hnone
  exact hlost entry hentry hkey

end IntegrityGuardian.LlmBus.CodexSteer
