import IntegrityGuardian.HomeOps.ImportBatch

/-!
# Imports that overlap

The registry is what the last call that returned has written as long as no failing
call has left one of its own, and a directory that the registry names belongs to a
call that returned.  The cleanup keeps both when it undoes nothing but its own call.
-/

namespace IntegrityGuardian.HomeOps

open Python Library

/-! ## The condition -/

/-- An exception of another class here leaves nothing behind. -/
def Stage.Clean (reused : Bool) : Stage → Prop
  | .lock | .prepare | .intake => True
  | .publish => reused = true
  | .append restored => reused = true ∧ restored = true

/-- A failed call has left its own registry in place. -/
def Dirty (w : World) (p : Nat) : Prop :=
  ∃ request reused snapshot seen, w.calls p = some (.failed request reused snapshot seen true)

/-- A directory is one of the first, or of a call that returned. -/
def Kept (w : World) (dir : Generation) : Prop :=
  dir.builder = none ∨ ∃ q request reused, dir.builder = some q ∧
    w.calls q = some (.returned request reused)

/-- No block runs over the registry of a failed call, an exception of another class
leaves nothing behind, and a cleanup works and meets nothing but its own call. -/
def Guarded (w : World) : Step → Prop
  | .begin _ _ => True
  | .block p fault => (∀ q, ¬Dirty w q) ∧ ∀ f request reused, fault = some f → f.handled = false →
      w.calls p = some (.checked request reused) → f.stage.Clean reused
  | .restore p undo => ∀ request reused before seen dirty,
      w.calls p = some (.failed request reused (some before) seen dirty) →
      (undo = .done → seen = w.published.length) ∧ (undo ≠ .done → dirty = false) ∧
      (undo = .escaped → ∀ dir, w.dirs request.output = some dir → dir.builder ≠ some p)
  | .remove p undo => ∀ request dir, w.calls p = some (.restored request false) →
      w.dirs request.output = some dir →
      (undo = .done → ¬Kept w dir) ∧ (undo ≠ .done → dir.builder ≠ some p)

/-! ## What the block does -/

/-- The root once the call has its generation. -/
def World.built (w : World) (p : Nat) (request : Request) (reused : Bool) : World :=
  if reused then w else w.setDir request.output (some ⟨some p⟩)

/-- What `import_batch` has checked when it comes to the payload. -/
def Ready (w : World) (request : Request) (reused : Bool) : Prop :=
  if reused then w.active = some (some request.output) else w.dirs request.output = none

/-- The block has failed with nothing done. -/
def FailsClean (w : World) (p : Nat) (request : Request) (reused : Bool) (w' : World) : Prop :=
  ∃ snapshot handled, (∀ before, snapshot = some before → before = w.registry) ∧
    w' = w.fail p request reused snapshot false handled

theorem failsClean_read (w : World) (p : Nat) (request : Request) (reused handled : Bool) :
    FailsClean w p request reused (w.fail p request reused (some w.registry) false handled) :=
  ⟨some w.registry, handled, fun _ h => (Option.some.inj h).symm, rfl⟩

/-- The block has come to the payload; an exception there that leaves nothing
behind is one of a call that built nothing. -/
def Reaches (w : World) (p : Nat) (request : Request) (reused : Bool) (fault : Option Fault)
    (w' : World) : Prop :=
  Ready w request reused ∧ (∀ f, fault = some f → f.stage.Clean reused → reused = true) ∧
    w' = (w.built p request reused).publish p request reused w.registry fault

theorem proceed_cases (w : World) (p : Nat) (request : Request) (reused : Bool)
    (fault : Option Fault)
    (hfault : ∀ f, fault = some f → f.stage ≠ .lock ∧ f.stage ≠ .prepare) :
    FailsClean w p request reused (w.proceed p request reused fault) ∨
      Reaches w p request reused fault (w.proceed p request reused fault) := by
  cases reused with
  | true =>
    unfold World.proceed
    rw [if_pos (rfl : true = true)]
    split
    · rename_i hactive
      exact .inr ⟨hactive.2.1, fun _ _ _ => rfl, rfl⟩
    · exact .inl (failsClean_read _ _ _ _ _)
  | false =>
    unfold World.proceed
    rw [if_neg Bool.false_ne_true]
    split
    · exact .inl (failsClean_read _ _ _ _ _)
    · exact .inl (failsClean_read _ _ _ _ _)
    · exact .inl (failsClean_read _ _ _ _ _)
    · rename_i hdir hintake
      refine .inr ⟨hdir, ?_, rfl⟩
      intro f hf hclean
      obtain ⟨hlock, hprepare⟩ := hfault f hf
      obtain ⟨stage, handled⟩ := f
      cases stage with
      | lock => exact absurd rfl hlock
      | prepare => exact absurd rfl hprepare
      | intake => exact (hintake handled hf).elim
      | publish => exact hclean
      | append restored => exact hclean.1

theorem block_cases (w : World) (p : Nat) (request : Request) (reused : Bool)
    (fault : Option Fault) :
    FailsClean w p request reused (w.block p request reused fault) ∨
      Reaches w p request reused fault (w.block p request reused fault) := by
  unfold World.block
  split
  · exact .inl ⟨none, _, fun _ h => absurd h (by simp), rfl⟩
  · exact .inl (failsClean_read _ _ _ _ _)
  · rename_i hlock hprepare
    apply proceed_cases
    rintro ⟨stage, handled⟩ rfl
    constructor
    · rintro rfl
      exact hlock handled rfl
    · rintro rfl
      exact hprepare handled rfl

/-- The root with the registry a failing block has left. -/
def World.left (w : World) (request : Request) (before : Registry) (dirty : Bool) : World :=
  { w with registry := if dirty then some (registryPayload request before) else w.registry }

/-- The root with what a call that returns has written. -/
def World.written (w : World) (request : Request) (before : Registry) : World :=
  { w with
    registry := some (registryPayload request before)
    published := w.published ++ [registryPayload request before] }

theorem publish_cases (w : World) (p : Nat) (request : Request) (reused : Bool)
    (before : Registry) (fault : Option Fault) :
    (∃ f dirty, fault = some f ∧ (f.stage.Clean reused → dirty = false) ∧
      w.publish p request reused before fault =
        (w.left request before dirty).fail p request reused (some before) dirty f.handled) ∨
    w.publish p request reused before fault =
      (w.written request before).setCall p (.returned request reused) := by
  unfold World.publish
  split
  · exact .inl ⟨_, false, rfl, fun _ => rfl, rfl⟩
  · exact .inl ⟨_, true, rfl, fun hclean => absurd hclean.2 (by decide), rfl⟩
  · exact .inl ⟨_, false, rfl, fun _ => rfl, rfl⟩
  · exact .inr rfl

/-! ## The invariant -/

/-- A call that has built a directory and not yet removed it. -/
def Owns (w : World) (q : Nat) (name : Str) : Prop :=
  ∃ request, request.output = name ∧ (w.calls q = some (.returned request false) ∨
    (∃ snapshot seen dirty, w.calls q = some (.failed request false snapshot seen dirty)) ∨
    w.calls q = some (.restored request false))

/-- A directory of the first root, or of a call that returned. -/
def Stands (first w : World) (name : Str) : Prop :=
  ∃ dir, w.dirs name = some dir ∧ ((dir.builder = none ∧ first.dirs name = some dir) ∨
    ∃ q request, dir.builder = some q ∧ w.calls q = some (.returned request false) ∧
      request.output = name)

structure Sound (first w : World) : Prop where
  registry : (∀ q, ¬Dirty w q) → w.registry = w.official first
  snapshots : ∀ q request reused before seen dirty,
    w.calls q = some (.failed request reused (some before) seen dirty) →
    seen = w.published.length → before = w.official first
  unread : ∀ q request reused seen dirty,
    w.calls q = some (.failed request reused none seen dirty) → dirty = false
  seen_le : ∀ q request reused snapshot seen dirty,
    w.calls q = some (.failed request reused snapshot seen dirty) → seen ≤ w.published.length
  standing : ∀ scope ∈ (w.official first).getD [], Stands first w scope.index
  builders : ∀ name dir q, w.dirs name = some dir → dir.builder = some q → Owns w q name

variable {dirty reused : Bool} {dir : Generation} {p seen : Nat} {phase : Phase} {request : Request}
  {name : Str} {undo : Undo} {first w w' : World}

theorem sound_initial (h : Initial w) : Sound w w := by
  have hofficial : w.official w = w.registry := by
    rw [World.official, h.published]
    rfl
  refine ⟨fun _ => hofficial.symm, ?_, ?_, ?_, ?_, ?_⟩
  · intro q request reused before seen dirty hq
    rw [h.calls] at hq
    cases hq
  · intro q request reused seen dirty hq
    rw [h.calls] at hq
    cases hq
  · intro q request reused snapshot seen dirty hq
    rw [h.calls] at hq
    cases hq
  · intro scope hscope
    rw [hofficial] at hscope
    obtain ⟨dir, hdir⟩ := h.named scope hscope
    exact ⟨dir, hdir, .inl ⟨h.builders _ _ hdir, hdir⟩⟩
  · intro name dir q hdir hbuilder
    rw [h.builders _ _ hdir] at hbuilder
    cases hbuilder

/-! ## One step -/

theorem official_congr (h : w'.published = w.published) :
    w'.official first = w.official first := by
  rw [World.official, World.official, h]

theorem Stands.congr (h : Stands first w name) (hdirs : w'.dirs name = w.dirs name)
    (hcalls : ∀ q request, w.calls q = some (.returned request false) → w'.calls q = w.calls q) :
    Stands first w' name := by
  obtain ⟨dir, hdir, hstands⟩ := h
  refine ⟨dir, hdirs.trans hdir, hstands.imp_right ?_⟩
  rintro ⟨q, request, hbuilder, hq, houtput⟩
  exact ⟨q, request, hbuilder, (hcalls q request hq).trans hq, houtput⟩

/-- A step of the call `p`: what it says of its own phase and of the directories
under its name, and where the first ones stand, is all there is to show. -/
theorem Sound.change (hs : Sound first w) (hcalls : ∀ q, q ≠ p → w'.calls q = w.calls q)
    (hpublished : w'.published = w.published ∨ w.published.length < w'.published.length)
    (hdirs : ∀ name dir, w'.dirs name = some dir →
      w.dirs name = some dir ∨ dir.builder = some p)
    (hregistry : (∀ q, ¬Dirty w' q) → w'.registry = w'.official first)
    (hstanding : ∀ scope ∈ (w'.official first).getD [], Stands first w' scope.index)
    (hfailed : ∀ request reused snapshot seen dirty,
      w'.calls p = some (.failed request reused snapshot seen dirty) →
      (∀ before, snapshot = some before → before = w'.official first) ∧
        (snapshot = none → dirty = false) ∧ seen ≤ w'.published.length)
    (howns : ∀ name dir, w'.dirs name = some dir → dir.builder = some p → Owns w' p name) :
    Sound first w' := by
  refine ⟨hregistry, ?_, ?_, ?_, hstanding, ?_⟩
  · intro q request reused before seen dirty hq hseen
    by_cases hqp : q = p
    · subst hqp
      exact (hfailed _ _ _ _ _ hq).1 before rfl
    · rw [hcalls q hqp] at hq
      rcases hpublished with hsame | hmore
      · rw [hsame] at hseen
        rw [official_congr hsame]
        exact hs.snapshots q request reused before seen dirty hq hseen
      · -- a call that failed before the last publication has seen fewer
        have hle := hs.seen_le q request reused _ seen dirty hq
        omega
  · intro q request reused seen dirty hq
    by_cases hqp : q = p
    · subst hqp
      exact (hfailed _ _ _ _ _ hq).2.1 rfl
    · rw [hcalls q hqp] at hq
      exact hs.unread q request reused seen dirty hq
  · intro q request reused snapshot seen dirty hq
    by_cases hqp : q = p
    · subst hqp
      exact (hfailed _ _ _ _ _ hq).2.2
    · rw [hcalls q hqp] at hq
      have hle := hs.seen_le q request reused snapshot seen dirty hq
      rcases hpublished with hsame | hmore
      · rw [hsame]
        exact hle
      · omega
  · intro name dir q hdir hbuilder
    by_cases hqp : q = p
    · subst hqp
      exact howns name dir hdir hbuilder
    · have hdir' : w.dirs name = some dir := by
        rcases hdirs name dir hdir with hold | hnew
        · exact hold
        · rw [hbuilder] at hnew
          exact absurd (Option.some.inj hnew) hqp
      obtain ⟨request, houtput, howner⟩ := hs.builders name dir q hdir' hbuilder
      refine ⟨request, houtput, ?_⟩
      rw [hcalls q hqp]
      exact howner

theorem Sound.setCall (hs : Sound first w)
    (hreturned : ∀ request, w.calls p ≠ some (.returned request false))
    (hregistry : (∀ q, ¬Dirty (w.setCall p phase) q) → w.registry = w.official first)
    (hfailed : ∀ request reused snapshot seen dirty,
      phase = .failed request reused snapshot seen dirty →
      (∀ before, snapshot = some before → before = w.official first) ∧
        (snapshot = none → dirty = false) ∧ seen ≤ w.published.length)
    (howns : ∀ name dir, w.dirs name = some dir → dir.builder = some p →
      Owns (w.setCall p phase) p name) : Sound first (w.setCall p phase) := by
  have hcalls : ∀ q, q ≠ p → (w.setCall p phase).calls q = w.calls q :=
    fun q hq => Function.update_of_ne hq _ _
  refine hs.change hcalls (.inl rfl) (fun _ _ => .inl) hregistry ?_ ?_ howns
  · intro scope hscope
    refine (hs.standing scope hscope).congr rfl ?_
    intro q request hq
    apply hcalls
    rintro rfl
    exact hreturned request hq
  · intro request reused snapshot seen dirty hp
    have hself : (w.setCall p phase).calls p = some phase := Function.update_self _ _ _
    rw [hself] at hp
    exact hfailed request reused snapshot seen dirty (Option.some.inj hp)

theorem Sound.not_builder (hs : Sound first w)
    (hp : w.calls p = none ∨ ∃ request reused, w.calls p = some (.checked request reused))
    (hdir : w.dirs name = some dir) : dir.builder ≠ some p := by
  intro hbuilder
  obtain ⟨request, -, howner⟩ := hs.builders name dir p hdir hbuilder
  rcases hp with hp | ⟨request', reused, hp⟩ <;> rw [hp] at howner
  · rcases howner with h | ⟨snapshot, seen, dirty, h⟩ | h <;> cases h
  · rcases howner with h | ⟨snapshot, seen, dirty, h⟩ | h <;> cases h

theorem index_registryPayload {registry : Registry} {scope : Scope}
    (h : scope ∈ registryPayload request registry) : scope.index = request.output := by
  rw [registryPayload, List.mem_insertionSort] at h
  obtain ⟨scope', -, rfl⟩ := List.mem_map.1 h
  rfl

theorem active_eq_some {output : Str} (h : w.active = some (some output)) :
    ∃ scope ∈ w.registry.getD [], scope.index = output := by
  unfold World.active at h
  split at h
  · cases h
  · cases h
  · rename_i scope scopes hregistry
    split at h
    · cases h
      rw [hregistry]
      exact ⟨scope, List.mem_cons_self, rfl⟩
    · cases h

theorem built_same (w : World) (p : Nat) (request : Request) (reused : Bool) :
    (w.built p request reused).published = w.published ∧
      (w.built p request reused).calls = w.calls := by
  unfold World.built
  split <;> exact ⟨rfl, rfl⟩

theorem built_dirs (h : (w.built p request reused).dirs name = some dir) :
    w.dirs name = some dir ∨ reused = false ∧ name = request.output ∧ dir = ⟨some p⟩ := by
  unfold World.built at h
  split at h
  · exact .inl h
  · rename_i hreused
    by_cases hname : name = request.output
    · subst hname
      rw [World.setDir_dirs, Function.update_self] at h
      exact .inr ⟨Bool.eq_false_iff.2 hreused, rfl, (Option.some.inj h).symm⟩
    · rw [World.setDir_dirs, Function.update_of_ne hname] at h
      exact .inl h

theorem Stands.built (h : Stands first w name) (hready : Ready w request reused)
    (hp : w.calls p = some (.checked request reused))
    (hdirs : w'.dirs = (w.built p request reused).dirs)
    (hcalls : ∀ q, q ≠ p → w'.calls q = w.calls q) : Stands first w' name := by
  refine h.congr ?_ ?_
  · rw [hdirs]
    cases reused with
    | true => rfl
    | false =>
      have hname : name ≠ request.output := by
        rintro rfl
        obtain ⟨dir, hdir, -⟩ := h
        have hfree : w.dirs request.output = none := hready
        rw [hfree] at hdir
        cases hdir
      exact Function.update_of_ne hname _ _
  · intro q request' hq
    apply hcalls
    rintro rfl
    rw [hp] at hq
    cases hq

/-- The root after the block has failed past its intake. -/
theorem Sound.leave (hs : Sound first w) {handled : Bool} (hclean : ∀ q, ¬Dirty w q)
    (hp : w.calls p = some (.checked request reused)) (hready : Ready w request reused)
    (hhandled : handled = false → reused = true ∧ dirty = false) :
    Sound first (((w.built p request reused).left request w.registry dirty).fail p request reused
      (some w.registry) dirty handled) := by
  have hofficial := hs.registry hclean
  obtain ⟨hpublished, hsame⟩ := built_same w p request reused
  have hcalls : ∀ q, q ≠ p → (((w.built p request reused).left request w.registry dirty).fail p
      request reused (some w.registry) dirty handled).calls q = w.calls q := by
    intro q hq
    rw [← hsame]
    exact Function.update_of_ne hq _ _
  have hself : (((w.built p request reused).left request w.registry dirty).fail p
      request reused (some w.registry) dirty handled).calls p =
      some (if handled then
        .failed request reused (some w.registry) (w.built p request reused).published.length dirty
      else .raised) := Function.update_self _ _ _
  have hsameOfficial : (((w.built p request reused).left request w.registry dirty).fail p
      request reused (some w.registry) dirty handled).official first = w.official first :=
    official_congr hpublished
  refine hs.change hcalls (.inl hpublished) ?_ ?_ ?_ ?_ ?_
  · intro name dir hdir
    rcases built_dirs hdir with hold | ⟨-, -, rfl⟩
    · exact .inl hold
    · exact .inr rfl
  · intro hnone
    rw [hsameOfficial, ← hofficial]
    cases dirty with
    | true =>
      cases handled with
      | true => exact absurd ⟨_, _, _, _, hself⟩ (hnone p)
      | false => cases (hhandled rfl).2
    | false =>
      show (w.built p request reused).registry = w.registry
      unfold World.built
      split <;> rfl
  · intro scope hscope
    rw [hsameOfficial] at hscope
    exact (hs.standing scope hscope).built hready hp rfl hcalls
  · intro request' reused' snapshot seen dirty' hq
    rw [hself] at hq
    cases handled with
    | false => cases hq
    | true =>
      cases hq
      refine ⟨?_, ?_, le_rfl⟩
      · intro before hbefore
        rw [hsameOfficial, ← hofficial]
        exact (Option.some.inj hbefore).symm
      · intro hnone
        cases hnone
  · intro name dir hdir hbuilder
    rcases built_dirs hdir with hold | ⟨hreused, rfl, rfl⟩
    · exact absurd hbuilder (hs.not_builder (.inr ⟨_, _, hp⟩) hold)
    · cases handled with
      | false => exact absurd hreused (by rw [(hhandled rfl).1]; decide)
      | true =>
        subst hreused
        exact ⟨request, rfl, .inr (.inl ⟨_, _, _, hself⟩)⟩

/-- The root after the block has returned. -/
theorem Sound.finish (hs : Sound first w) (hclean : ∀ q, ¬Dirty w q)
    (hp : w.calls p = some (.checked request reused)) (hready : Ready w request reused) :
    Sound first (((w.built p request reused).written request w.registry).setCall p
      (.returned request reused)) := by
  have hofficial := hs.registry hclean
  obtain ⟨hpublished, hsame⟩ := built_same w p request reused
  have hcalls : ∀ q, q ≠ p → (((w.built p request reused).written request w.registry).setCall p
      (.returned request reused)).calls q = w.calls q := by
    intro q hq
    rw [← hsame]
    exact Function.update_of_ne hq _ _
  have hself : (((w.built p request reused).written request w.registry).setCall p
      (.returned request reused)).calls p = some (.returned request reused) :=
    Function.update_self _ _ _
  have hlast : (((w.built p request reused).written request w.registry).setCall p
      (.returned request reused)).official first = some (registryPayload request w.registry) := by
    simp [World.official, World.setCall, World.written]
  refine hs.change hcalls (.inr ?_) ?_ ?_ ?_ ?_ ?_
  · show _ < ((w.built p request reused).published ++ [_]).length
    rw [hpublished, List.length_append]
    exact Nat.lt_succ_self _
  · intro name dir hdir
    rcases built_dirs hdir with hold | ⟨-, -, rfl⟩
    · exact .inl hold
    · exact .inr rfl
  · intro _
    exact hlast.symm
  · intro scope hscope
    rw [hlast] at hscope
    rw [index_registryPayload hscope]
    cases reused with
    | false =>
      exact ⟨⟨some p⟩, Function.update_self _ _ _, .inr ⟨p, request, rfl, hself, rfl⟩⟩
    | true =>
      -- a generation is only reused while the registry names it
      obtain ⟨active, hactive, houtput⟩ := active_eq_some hready
      rw [hofficial] at hactive
      have hstands := hs.standing active hactive
      rw [houtput] at hstands
      exact hstands.built hready hp rfl hcalls
  · intro request' reused' snapshot seen dirty hq
    rw [hself] at hq
    cases hq
  · intro name dir hdir hbuilder
    rcases built_dirs hdir with hold | ⟨hreused, rfl, rfl⟩
    · exact absurd hbuilder (hs.not_builder (.inr ⟨_, _, hp⟩) hold)
    · subst hreused
      exact ⟨request, rfl, .inl hself⟩

theorem Owns.of_failed (h : Owns w p name) {snapshot : Option Registry}
    (hp : w.calls p = some (.failed request reused snapshot seen dirty)) :
    request.output = name ∧ reused = false := by
  obtain ⟨request', houtput, howner⟩ := h
  rw [hp] at howner
  rcases howner with h | ⟨snapshot', seen', dirty', h⟩ | h
  · cases h
  · cases h
    exact ⟨houtput, rfl⟩
  · cases h

theorem Owns.of_restored (h : Owns w p name) (hp : w.calls p = some (.restored request reused)) :
    request.output = name ∧ reused = false := by
  obtain ⟨request', houtput, howner⟩ := h
  rw [hp] at howner
  rcases howner with h | ⟨snapshot, seen, dirty, h⟩ | h
  · cases h
  · cases h
  · cases h
    exact ⟨houtput, rfl⟩

theorem Sound.pass (hs : Sound first w)
    (hclean : ¬Dirty w p) : (∀ q, ¬Dirty (w.setCall p phase) q) → w.registry = w.official first := by
  intro hnone
  apply hs.registry
  intro q hdirty
  by_cases hqp : q = p
  · subst hqp
    exact hclean hdirty
  · obtain ⟨request, reused, snapshot, seen, hq⟩ := hdirty
    exact hnone q ⟨request, reused, snapshot, seen, (Function.update_of_ne hqp _ _).trans hq⟩

theorem Sound.block (hs : Sound first w)
    {fault : Option Fault} (hguard : Guarded w (.block p fault))
    (hp : w.calls p = some (.checked request reused)) :
    Sound first (w.block p request reused fault) := by
  obtain ⟨hclean, hhandled⟩ := hguard
  rcases block_cases w p request reused fault with
    ⟨snapshot, handled, hread, heq⟩ | ⟨hready, hbuilt, heq⟩
  · rw [heq]
    refine hs.setCall ?_ (hs.pass (hclean p)) ?_ ?_
    · intro request' hq
      rw [hp] at hq
      cases hq
    · intro request' reused' snapshot' seen dirty hphase
      cases handled with
      | false => cases hphase
      | true =>
        cases hphase
        refine ⟨?_, fun _ => rfl, le_rfl⟩
        intro before hbefore
        rw [← hs.registry hclean]
        exact hread before hbefore
    · intro name dir hdir hbuilder
      exact absurd hbuilder (hs.not_builder (.inr ⟨_, _, hp⟩) hdir)
  · rw [heq]
    rcases publish_cases (w.built p request reused) p request reused w.registry fault with
      ⟨f, dirty, hfault, hdirty, hpublish⟩ | hpublish
    · rw [hpublish]
      apply hs.leave hclean hp hready
      intro hunhandled
      have hcleanStage := hhandled f request reused hfault hunhandled hp
      exact ⟨hbuilt f hfault hcleanStage, hdirty hcleanStage⟩
    · rw [hpublish]
      exact hs.finish hclean hp hready

theorem Sound.restore (hs : Sound first w) {before : Registry}
    (hguard : Guarded w (.restore p undo))
    (hp : w.calls p = some (.failed request reused (some before) seen dirty)) :
    Sound first (match undo with
      | .done => { w with registry := before }.setCall p (.restored request reused)
      | .ignored => w.setCall p (.restored request reused)
      | .escaped => w.setCall p .raised) := by
  obtain ⟨hdone, hother, hescaped⟩ := hguard request reused before seen dirty hp
  have hreturned : ∀ request', w.calls p ≠ some (.returned request' false) := by
    intro request' hq
    rw [hp] at hq
    cases hq
  have hnotDirty : dirty = false → ¬Dirty w p := by
    rintro rfl ⟨request', reused', snapshot, seen', hq⟩
    rw [hp] at hq
    cases hq
  cases undo with
  | done =>
    have hbefore := hs.snapshots p request reused before seen dirty hp (hdone rfl)
    have hcalls : ∀ q, q ≠ p → (World.setCall { w with registry := before } p
        (.restored request reused)).calls q = w.calls q :=
      fun q hq => Function.update_of_ne hq _ _
    have hself : (World.setCall { w with registry := before } p
        (.restored request reused)).calls p = some (.restored request reused) :=
      Function.update_self _ _ _
    refine hs.change hcalls (.inl rfl) (fun _ _ => .inl) (fun _ => hbefore) ?_ ?_ ?_
    · intro scope hscope
      refine (hs.standing scope hscope).congr rfl ?_
      intro q request' hq
      apply hcalls
      rintro rfl
      exact hreturned request' hq
    · intro request' reused' snapshot seen' dirty' hq
      rw [hself] at hq
      cases hq
    · intro name dir hdir hbuilder
      obtain ⟨houtput, rfl⟩ := (hs.builders name dir p hdir hbuilder).of_failed hp
      exact ⟨request, houtput, .inr (.inr hself)⟩
  | ignored =>
    refine hs.setCall hreturned (hs.pass (hnotDirty (hother (by decide)))) ?_ ?_
    · intro request' reused' snapshot seen' dirty' hphase
      cases hphase
    · intro name dir hdir hbuilder
      obtain ⟨houtput, rfl⟩ := (hs.builders name dir p hdir hbuilder).of_failed hp
      exact ⟨request, houtput, .inr (.inr (Function.update_self _ _ _))⟩
  | escaped =>
    refine hs.setCall hreturned (hs.pass (hnotDirty (hother (by decide)))) ?_ ?_
    · intro request' reused' snapshot seen' dirty' hphase
      cases hphase
    · intro name dir hdir hbuilder
      obtain ⟨rfl, -⟩ := (hs.builders name dir p hdir hbuilder).of_failed hp
      exact absurd hbuilder (hescaped rfl dir hdir)

theorem Sound.remove (hs : Sound first w) (hguard : Guarded w (.remove p undo))
    (hp : w.calls p = some (.restored request reused)) :
    Sound first (if reused = false ∧ undo = .done then
      (w.setDir request.output none).setCall p .raised else w.setCall p .raised) := by
  have hreturned : ∀ request', w.calls p ≠ some (.returned request' false) := by
    intro request' hq
    rw [hp] at hq
    cases hq
  have hnotDirty : ¬Dirty w p := by
    rintro ⟨request', reused', snapshot, seen, hq⟩
    rw [hp] at hq
    cases hq
  split
  · rename_i hremoves
    obtain ⟨rfl, rfl⟩ := hremoves
    have hcalls : ∀ q, q ≠ p → ((w.setDir request.output none).setCall p .raised).calls q =
        w.calls q := fun q hq => Function.update_of_ne hq _ _
    have hself : ((w.setDir request.output none).setCall p .raised).calls p = some .raised :=
      Function.update_self _ _ _
    have hdirs : ∀ name, name ≠ request.output →
        ((w.setDir request.output none).setCall p .raised).dirs name = w.dirs name :=
      fun name hname => Function.update_of_ne hname _ _
    have hgone : ((w.setDir request.output none).setCall p .raised).dirs request.output = none :=
      Function.update_self _ _ _
    have hold : ∀ name dir, ((w.setDir request.output none).setCall p .raised).dirs name = some dir →
        name ≠ request.output ∧ w.dirs name = some dir := by
      intro name dir hdir
      have hname : name ≠ request.output := by
        rintro rfl
        rw [hgone] at hdir
        cases hdir
      rw [hdirs name hname] at hdir
      exact ⟨hname, hdir⟩
    refine hs.change hcalls (.inl rfl) (fun name dir hdir => .inl (hold name dir hdir).2)
      ?_ ?_ ?_ ?_
    · intro hnone
      exact hs.pass hnotDirty hnone
    · intro scope hscope
      have hstands := hs.standing scope hscope
      have hname : scope.index ≠ request.output := by
        intro hname
        obtain ⟨dir, hdir, hstands⟩ := hstands
        rw [hname] at hdir
        refine (hguard request dir hp hdir).1 rfl ?_
        rcases hstands with ⟨hbuilder, -⟩ | ⟨q, request', hbuilder, hq, -⟩
        · exact .inl hbuilder
        · exact .inr ⟨q, request', false, hbuilder, hq⟩
      refine hstands.congr (hdirs _ hname) ?_
      intro q request' hq
      apply hcalls
      rintro rfl
      exact hreturned request' hq
    · intro request' reused' snapshot seen dirty hq
      rw [hself] at hq
      cases hq
    · intro name dir hdir hbuilder
      obtain ⟨hname, hdir'⟩ := hold name dir hdir
      obtain ⟨houtput, -⟩ := (hs.builders name dir p hdir' hbuilder).of_restored hp
      exact absurd houtput.symm hname
  · rename_i hkeeps
    refine hs.setCall hreturned (hs.pass hnotDirty) ?_ ?_
    · intro request' reused' snapshot seen dirty hphase
      cases hphase
    · intro name dir hdir hbuilder
      obtain ⟨rfl, rfl⟩ := (hs.builders name dir p hdir hbuilder).of_restored hp
      exact absurd hbuilder ((hguard request dir hp hdir).2 fun hundo => hkeeps ⟨rfl, hundo⟩)

theorem Sound.step {step : Step} (hs : Sound first w)
    (hguard : Guarded w step) (h : perform w step = some w') : Sound first w' := by
  cases step with
  | begin p request =>
    rw [perform] at h
    split at h
    · rename_i hp
      cases h
      have hnotDirty : ¬Dirty w p := by
        rintro ⟨request', reused', snapshot, seen, hq⟩
        rw [hp] at hq
        cases hq
      refine hs.setCall ?_ (hs.pass hnotDirty) ?_ ?_
      · intro request' hq
        rw [hp] at hq
        cases hq
      · intro request' reused' snapshot seen dirty hphase
        cases hphase
      · intro name dir hdir hbuilder
        exact absurd hbuilder (hs.not_builder (.inl hp) hdir)
    · cases h
  | block p fault =>
    rw [perform] at h
    split at h
    · rename_i request reused hp
      cases h
      exact hs.block hguard hp
    · cases h
  | restore p undo =>
    rw [perform] at h
    split at h
    · rename_i request reused seen dirty hp
      cases h
      have hnotDirty : ¬Dirty w p := by
        rintro ⟨request', reused', snapshot, seen', hq⟩
        have hfalse := hs.unread p request reused seen dirty hp
        rw [hp, hfalse] at hq
        cases hq
      refine hs.setCall ?_ (hs.pass hnotDirty) ?_ ?_
      · intro request' hq
        rw [hp] at hq
        cases hq
      · intro request' reused' snapshot seen' dirty' hphase
        cases hphase
      · intro name dir hdir hbuilder
        obtain ⟨houtput, rfl⟩ := (hs.builders name dir p hdir hbuilder).of_failed hp
        exact ⟨request, houtput, .inr (.inr (Function.update_self _ _ _))⟩
    · rename_i request reused before seen dirty hp
      have hrestore := hs.restore hguard hp
      cases undo <;> cases h <;> exact hrestore
    · cases h
  | remove p undo =>
    rw [perform] at h
    split at h
    · rename_i request reused hp
      have hremove := hs.remove hguard hp
      split at h
      · rename_i hremoves
        cases h
        rw [if_pos hremoves] at hremove
        exact hremove
      · rename_i hkeeps
        cases h
        rw [if_neg hkeeps] at hremove
        exact hremove
    · cases h

/-! ## Runs -/

/-- A possible step that meets the condition. -/
def GuardedStep (w : World) (step : Step) (w' : World) : Prop :=
  Guarded w step ∧ Performs w step w'

theorem sound_steps {steps : List Step} (hs : Sound first w)
    (h : Steps GuardedStep w steps w') : Sound first w' := by
  induction h with
  | nil w => exact hs
  | cons step rest ih => exact ih (hs.step step.1 step.2)

section Sample

end Sample

end IntegrityGuardian.HomeOps
