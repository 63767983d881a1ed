import IntegrityGuardian.SeedRetention.Chains

/-!
# What an invocation does

Each table ends an invocation in one of four ways: as it was, with files that the chain
does not reach, with an archive of rows that it still has, or with those rows moved.
-/

namespace IntegrityGuardian.SeedRetention

open Python Library
open Durable (exec exec_bind)

section
variable {Row : Type} (gzip : Bytes → Bytes) (stream : Stream Row) (side : Side Row)

/-! ## `_archive_rows` -/

theorem get_write (name : Str) (file : File Row) (place : Place) :
    ((side.write name file place).root place).files[name]? = some file := by
  cases place <;> simp [Side.root, Side.write]

theorem exec_safeCopy {stop : Option Write} {write : Write} (h : stop ≠ some write) (place : Place)
    (name : Str) (file : File Row) :
    exec (safeCopy gzip stream stop write place name file) side
      = (.ok (stream.sha256File gzip file), side.write name file place) := by
  simp [safeCopy, exec_bind, h, get_write]

theorem exec_safeCopy_stopped (write : Write) (place : Place) (name : Str) (file : File Row) :
    exec (safeCopy gzip stream (some write) write place name file) side
      = (.error .stopped, side) := by
  simp [safeCopy]

/-- Both files of an archive in one root. -/
def Side.copied (clock : Clock) (rows : List Row) (manifest : Manifest) (place : Place) :
    Side Row :=
  (side.write manifest.payloadName (.payload rows) place).write
    (stream.manifestName (stamp clock.stampedAt)) (.manifest manifest) place

theorem exec_copyArchive {stop : Option Write} {place : Place}
    (hpayload : stop ≠ some (.payload place)) (hmanifest : stop ≠ some (.manifest place))
    (clock : Clock) (rows : List Row) (manifest : Manifest) :
    exec (copyArchive gzip stream stop clock rows manifest place) side
      = (.ok ⟨stream.sha256File gzip (.payload rows), stream.sha256File gzip (.manifest manifest)⟩,
        side.copied stream clock rows manifest place) := by
  simp [copyArchive, exec_bind, exec_safeCopy, hpayload, hmanifest, Side.copied, Except.map]

variable {gzip stream side} {side' : Side Row} {stamp : Str}

theorem Unlinked.refl : Unlinked stream stamp side side := ⟨rfl, rfl, fun _ _ _ => rfl⟩

theorem Unlinked.write (h : Unlinked stream stamp side side') {name : Str}
    (hname : name = stream.payloadName stamp ∨ name = stream.manifestName stamp) (file : File Row)
    (place : Place) : Unlinked stream stamp side (side'.write name file place) := by
  cases place with
  | localRoot => exact ⟨h.rows, h.state, h.files⟩
  | vdbRoot =>
    refine ⟨h.rows, h.state, ?_⟩
    intro other hpayload hmanifest
    have hne : name ≠ other := by
      rintro rfl
      exact hname.elim hpayload hmanifest
    simp only [Side.write, Dict.get_insert]
    rw [if_neg hne]
    exact h.files other hpayload hmanifest

theorem Unlinked.copied (h : Unlinked stream stamp side side') {clock : Clock}
    (hstamp : SeedRetention.stamp clock.stampedAt = stamp) {manifest : Manifest}
    (hname : manifest.payloadName = stream.payloadName stamp) (rows : List Row) (place : Place) :
    Unlinked stream stamp side (side'.copied stream clock rows manifest place) :=
  (h.write (.inl hname) _ place).write (.inr (congrArg _ hstamp)) _ place

theorem exec_copyArchive_stopped (gzip : Bytes → Bytes) {stop : Option Write} {place : Place}
    (h : stop = some (.payload place) ∨ stop = some (.manifest place)) (clock : Clock)
    {manifest : Manifest} (hname : manifest.payloadName = stream.payloadName stamp)
    (rows : List Row) (hside : Unlinked stream stamp side side') :
    ∃ t, exec (copyArchive gzip stream stop clock rows manifest place) side'
        = (.error .stopped, t) ∧
      Unlinked stream stamp side t := by
  cases h with
  | inl h =>
    subst h
    exact ⟨side', by simp [copyArchive, exec_bind, exec_safeCopy_stopped], hside⟩
  | inr h =>
    subst h
    refine ⟨side'.write manifest.payloadName (.payload rows) place, ?_,
      hside.write (.inl hname) _ place⟩
    simp [copyArchive, exec_bind, exec_safeCopy, exec_safeCopy_stopped, Except.map]

variable (stream)

/-- The state that `_archive_rows` continues. -/
def Root.loaded (root : Root Row) : State :=
  root.state.getD ⟨stream.protocol ++ str ".state", [], 0, none, none⟩

variable {stream}

theorem loadState_eq {root : Root Row}
    (h : ∀ state, root.state = some state → state.protocol = stream.protocol ++ str ".state") :
    stream.loadState root = .ok (root.loaded stream) := by
  unfold Stream.loadState Root.loaded
  cases hstate : root.state with
  | none => rfl
  | some state => exact if_neg (not_not.2 (h state hstate))

/-- What a call of `_archive_rows` returns or raises, and what it leaves. -/
inductive Archiving (stream : Stream Row) (stop : Option Write) (stamp : Str) (archived : List Row)
    (side : Side Row) : Except Failure Archive × Side Row → Prop where
  | stopped {write : Write} {side' : Side Row} : stop = some write → write ≠ .localState →
    Unlinked stream stamp side side' →
    Archiving stream stop stamp archived side (.error .stopped, side')
  | halfway {side' : Side Row} : stop = some .localState → Pushed stream stamp archived side side' →
    Archiving stream stop stamp archived side (.error .stopped, side')
  | finished {archive : Archive} {side' : Side Row} : stop = none →
    Pushed stream stamp archived side side' →
    Archiving stream stop stamp archived side (.ok archive, side')

theorem pushed_of_root {clock : Clock} {rows : List Row} {first last : Row} {beforeCount : Nat}
    {manifest : Manifest}
    (hmanifest : manifest
      = stream.manifest gzip clock rows first last beforeCount (side.vdbRoot.loaded stream))
    (hrows : side'.rows = side.rows)
    (hroot : side'.vdbRoot =
      { ((side.copied stream clock rows manifest .localRoot).copied stream clock rows manifest
          .vdbRoot).vdbRoot with
        state := some ⟨stream.protocol ++ str ".state", manifest.sha256,
          (side.vdbRoot.loaded stream).archiveCount + 1, some (stream.finishedAt last),
          some clock.updatedAt.isoformat⟩ }) :
    Pushed stream (SeedRetention.stamp clock.stampedAt) rows side side' := by
  have hname : manifest.payloadName = stream.payloadName (SeedRetention.stamp clock.stampedAt) := by
    rw [hmanifest]
    rfl
  have hlocal : Unlinked stream (SeedRetention.stamp clock.stampedAt) side
      (side.copied stream clock rows manifest .localRoot) := Unlinked.refl.copied rfl hname rows _
  have hcopied := hlocal.copied rfl hname rows .vdbRoot
  have hne := payloadName_ne_manifestName stream (SeedRetention.stamp clock.stampedAt)
    (SeedRetention.stamp clock.stampedAt)
  have hstate := congrArg Root.state hroot
  refine ⟨hrows, ?_, ?_, manifest, _, ?_, hname, ?_, hstate, rfl, rfl, ?_⟩
  · intro name hpayload hmanifest
    rw [hroot]
    exact hcopied.files name hpayload hmanifest
  · rw [hroot]
    simp only [Side.copied, Side.write, hname, Dict.get_insert, if_neg hne.symm, if_true]
  · rw [hroot]
    simp only [Side.copied, Side.write, Dict.get_insert, if_true]
  · rw [hmanifest]
    unfold Stream.manifest Root.loaded Root.head
    cases side.vdbRoot.state <;> rfl
  · unfold Root.loaded
    cases side.vdbRoot.state <;> rfl

theorem archiveRows_archiving (gzip : Bytes → Bytes) (stop : Option Write) (clock : Clock)
    {rows : List Row} (hrows : rows ≠ []) (beforeCount : Nat)
    (hstate : ∀ state, side.vdbRoot.state = some state →
      state.protocol = stream.protocol ++ str ".state") :
    Archiving stream stop (SeedRetention.stamp clock.stampedAt) rows side
      (exec (archiveRows gzip stream stop clock rows beforeCount) side) := by
  obtain ⟨first, hfirst⟩ := Option.ne_none_iff_exists'.1 (mt List.head?_eq_none_iff.1 hrows)
  obtain ⟨last, hlast⟩ := Option.ne_none_iff_exists'.1 (mt List.getLast?_eq_none_iff.1 hrows)
  obtain ⟨manifest, hmanifest⟩ : ∃ manifest, manifest = stream.manifest gzip clock rows first last
    beforeCount (side.vdbRoot.loaded stream) := ⟨_, rfl⟩
  have hname : manifest.payloadName = stream.payloadName (SeedRetention.stamp clock.stampedAt) := by
    rw [hmanifest]
    rfl
  have hpayload : manifest.payloadSha256 = stream.sha256File gzip (.payload rows) := by
    rw [hmanifest]
    rfl
  unfold archiveRows
  simp only [exec_bind, Durable.exec_get, Durable.exec_lift, loadState_eq hstate, hfirst, hlast,
    ← hmanifest]
  by_cases hlocal : stop = some (.payload .localRoot) ∨ stop = some (.manifest .localRoot)
  · obtain ⟨side', hexec, hside⟩ :=
      exec_copyArchive_stopped gzip hlocal clock hname rows Unlinked.refl
    rw [hexec]
    cases hlocal with
    | inl hstop => exact .stopped hstop nofun hside
    | inr hstop => exact .stopped hstop nofun hside
  rw [exec_copyArchive gzip stream side (not_or.1 hlocal).1 (not_or.1 hlocal).2]
  have hcopied : Unlinked stream (SeedRetention.stamp clock.stampedAt) side
      (side.copied stream clock rows manifest .localRoot) := Unlinked.refl.copied rfl hname rows _
  by_cases hvdb : stop = some (.payload .vdbRoot) ∨ stop = some (.manifest .vdbRoot)
  · obtain ⟨side', hexec, hside⟩ :=
      exec_copyArchive_stopped gzip hvdb clock hname rows hcopied
    simp only [hexec]
    cases hvdb with
    | inl hstop => exact .stopped hstop nofun hside
    | inr hstop => exact .stopped hstop nofun hside
  simp only [exec_copyArchive gzip stream _ (not_or.1 hvdb).1 (not_or.1 hvdb).2, hpayload,
    List.any_cons, List.any_nil, bne_self_eq_false, Bool.or_self, Bool.false_eq_true, if_false,
    exec_bind, Durable.exec_pure, saveState]
  by_cases hsave : stop = some .state
  · rw [if_pos hsave]
    exact .stopped hsave nofun (hcopied.copied rfl hname rows .vdbRoot)
  rw [if_neg hsave]
  simp only [exec_bind, Durable.exec_modify]
  by_cases hhalf : stop = some .localState
  · rw [if_pos hhalf]
    exact .halfway hhalf (pushed_of_root hmanifest rfl rfl)
  · rw [if_neg hhalf]
    simp only [Durable.exec_modify]
    refine .finished ?_ (pushed_of_root hmanifest rfl rfl)
    cases stop with
    | none => rfl
    | some write =>
      cases write with
      | payload place => cases place <;> simp at hlocal hvdb
      | manifest place => cases place <;> simp at hlocal hvdb
      | state => exact absurd rfl hsave
      | localState => exact absurd rfl hhalf

/-! ## What becomes of a table -/

/-- How an invocation leaves a table, where `stopped` and `doubled` say that it did not get to
its end and not to the deletion. -/
inductive Outcome (stream : Stream Row) (stopped doubled : Prop) (stamp : Str)
    (archived : List Row) (side : Side Row) : Side Row → Prop where
  | same : archived = [] ∨ stopped → Outcome stream stopped doubled stamp archived side side
  | unlinked {side' : Side Row} : archived ≠ [] → stopped → Unlinked stream stamp side side' →
    Outcome stream stopped doubled stamp archived side side'
  | copied {side' : Side Row} : archived ≠ [] → doubled → Pushed stream stamp archived side side' →
    Outcome stream stopped doubled stamp archived side side'
  | moved {side' : Side Row} : archived ≠ [] → ¬doubled → Pushed stream stamp archived side side' →
    Outcome stream stopped doubled stamp archived side
      { side' with rows := stream.remaining side.rows archived }

/-- A table whose rows are archived, if there are any, and not yet deleted. -/
def Staged (stream : Stream Row) (stamp : Str) (archived : List Row) (side side' : Side Row) :
    Prop :=
  (archived = [] ∧ side' = side) ∨ (archived ≠ [] ∧ Pushed stream stamp archived side side')

section
variable {archived : List Row} {stopped doubled : Prop}

theorem Staged.rows (h : Staged stream stamp archived side side') : side'.rows = side.rows := by
  rcases h with ⟨-, rfl⟩ | ⟨-, hpushed⟩
  · rfl
  · exact hpushed.rows

theorem Staged.outcome (h : Staged stream stamp archived side side') (hdoubled : doubled) :
    Outcome stream stopped doubled stamp archived side side' := by
  rcases h with ⟨hnil, rfl⟩ | ⟨hne, hpushed⟩
  · exact .same (.inl hnil)
  · exact .copied hne hdoubled hpushed

theorem Staged.deleted (h : Staged stream stamp archived side side') (hdoubled : ¬doubled) :
    Outcome stream stopped doubled stamp archived side
      { side' with rows := stream.remaining side'.rows archived } := by
  rcases h with ⟨rfl, rfl⟩ | ⟨hne, hpushed⟩
  · have hrows : stream.remaining side'.rows [] = side'.rows := by
      simp [Policy.remaining]
    rw [hrows]
    exact .same (.inl rfl)
  · rw [hpushed.rows]
    exact .moved hne hdoubled hpushed

end

end

/-! ## `main` -/

section
variable [CaseData] {gzip : Bytes → Bytes} {invocation : Invocation} {world : World}

/-- The rows of `seed_catalog_runs` that an invocation archives. -/
def World.archived (world : World) (keepRecent : Int) : List CatalogRun :=
  (chooseRuns world.runs keepRecent).2

/-- The rows of `seed_delta_runs` that an invocation archives. -/
def World.deltaArchived (world : World) (keepRecent : Int) : List DeltaRun :=
  (chooseDeltaRuns world.deltaRuns keepRecent).2

/-- An invocation stops after it replaced a `state.json` and before it commits. -/
def Invocation.Interrupted (invocation : Invocation) (world : World) : Prop :=
  match invocation.stop with
  | some (.catalog .localState) => world.archived invocation.keepRecent ≠ []
  | some (.delta .localState) => world.deltaArchived invocation.keepRecent ≠ []
  | some (.delta _) =>
    world.archived invocation.keepRecent ≠ [] ∧ world.deltaArchived invocation.keepRecent ≠ []
  | some .commit =>
    world.archived invocation.keepRecent ≠ [] ∨ world.deltaArchived invocation.keepRecent ≠ []
  | _ => False

/-- An invocation does not get to the deletion of what it archives. -/
def Invocation.Doubles (invocation : Invocation) (world : World) : Prop :=
  invocation.dryRun = true ∨ invocation.Interrupted world

theorem exec_archiveRuns (archived : List CatalogRun) (beforeCount : Nat) :
    exec (archiveRuns gzip invocation archived beforeCount) world =
      if archived = [] then (.ok none, world)
      else
        let result := exec (archiveRows gzip catalogStream invocation.catalogStop
          invocation.catalogClock archived beforeCount) world.catalog
        (result.1.map some, { world with catalog := result.2 }) := by
  unfold archiveRuns
  split <;> simp

omit [CaseData] in
theorem exec_archiveDeltaRuns (archived : List DeltaRun) (beforeCount : Nat) :
    exec (archiveDeltaRuns gzip invocation archived beforeCount) world =
      if archived = [] then (.ok none, world)
      else
        let result := exec (archiveRows gzip deltaStream invocation.deltaStop
          invocation.deltaClock archived beforeCount) world.delta
        (result.1.map some, { world with delta := result.2 }) := by
  unfold archiveDeltaRuns
  split <;> simp

omit [CaseData] in
theorem exec_reach (invocation : Invocation) (world : World) (point : Point) :
    (exec (invocation.reach point) world).2 = world := by
  unfold Invocation.reach
  split <;> simp

omit [CaseData] in
theorem exec_writeReceipt (invocation : Invocation) (world : World) (receipt : Receipt) :
    ∃ evidence, (exec (writeReceipt invocation receipt) world).2
      = { world with evidence := evidence } := by
  unfold writeReceipt Invocation.reach
  split
  · exact ⟨world.evidence, by simp⟩
  · exact ⟨_, by simp; rfl⟩

theorem exec_deleteRows {archived : List CatalogRun} {deltaArchived : List DeltaRun}
    {keptCount deltaKeptCount : Nat}
    (hcount : (catalogStream.remaining world.catalog.rows archived).length = keptCount)
    (hdelta : (deltaStream.remaining world.delta.rows deltaArchived).length = deltaKeptCount) :
    exec (deleteRows invocation archived deltaArchived keptCount deltaKeptCount) world =
      if invocation.stop = some .commit then (.error .stopped, world)
      else (.ok (),
        { world with
          catalog.rows := catalogStream.remaining world.catalog.rows archived
          delta.rows := deltaStream.remaining world.delta.rows deltaArchived }) := by
  unfold deleteRows Invocation.reach
  simp only [exec_bind, Durable.exec_get, hcount, hdelta, ne_eq, not_true_eq_false, if_false]
  by_cases hstop : invocation.stop = some .commit
  · rw [if_pos hstop, if_pos hstop]
    rfl
  · rw [if_neg hstop, if_neg hstop]
    rfl

theorem length_remaining {Row : Type} {policy : Policy Row} {rows : List Row}
    (h : (rows.map policy.id).Nodup) (keepRecent : Int) :
    (policy.remaining rows (policy.choose (policy.ordered rows) keepRecent).2).length
      = (policy.choose (policy.ordered rows) keepRecent).1.card := by
  rw [choose_ordered, card_keep h, Policy.remaining, filter_archived]

/-- What an invocation makes of both tables. -/
structure Leaves (invocation : Invocation) (world world' : World) : Prop where
  catalog : Outcome catalogStream (invocation.stop ≠ none) (invocation.Doubles world)
    (stamp invocation.catalogClock.stampedAt) (world.archived invocation.keepRecent) world.catalog
    world'.catalog
  delta : Outcome deltaStream (invocation.stop ≠ none) (invocation.Doubles world)
    (stamp invocation.deltaClock.stampedAt) (world.deltaArchived invocation.keepRecent) world.delta
    world'.delta

theorem Leaves.receipt {world' : World} (h : Leaves invocation world world') (receipt : Receipt) :
    Leaves invocation world (exec (writeReceipt invocation receipt) world').2 := by
  obtain ⟨evidence, hexec⟩ := exec_writeReceipt invocation world' receipt
  rw [hexec]
  exact ⟨h.catalog, h.delta⟩

theorem Leaves.seal {world' : World} (h : Leaves invocation world world') (receipt : Receipt) :
    Leaves invocation world (exec (do
      invocation.reach .seal
      writeReceipt invocation receipt) world').2 := by
  have hreach := exec_reach invocation world' .seal
  rw [exec_bind]
  revert hreach
  cases exec (invocation.reach .seal) world' with
  | mk result t =>
    rintro rfl
    cases result with
    | ok _ => exact h.receipt receipt
    | error _ => exact h

omit [CaseData] in
theorem catalogStop_eq_some {write : Write} :
    invocation.catalogStop = some write ↔ invocation.stop = some (.catalog write) := by
  unfold Invocation.catalogStop
  split <;> simp_all

omit [CaseData] in
theorem deltaStop_eq_some {write : Write} :
    invocation.deltaStop = some write ↔ invocation.stop = some (.delta write) := by
  unfold Invocation.deltaStop
  split <;> simp_all

theorem stop_eq_commit
    (hcatalog : world.archived invocation.keepRecent = [] ∨ invocation.catalogStop = none)
    (hdelta : world.deltaArchived invocation.keepRecent = [] ∨ invocation.deltaStop = none)
    (h : invocation.Interrupted world) : invocation.stop = some .commit := by
  unfold Invocation.Interrupted at h
  split at h
  · rename_i hstop
    rw [catalogStop_eq_some.2 hstop] at hcatalog
    exact absurd (hcatalog.resolve_right nofun) h
  · rename_i hstop
    rw [deltaStop_eq_some.2 hstop] at hdelta
    exact absurd (hdelta.resolve_right nofun) h
  · rename_i hstop
    rw [deltaStop_eq_some.2 hstop] at hdelta
    exact absurd (hdelta.resolve_right nofun) h.2
  · assumption
  · exact h.elim

theorem conclude_leaves {staged : World} {archives : Option Archive × Option Archive}
    (hcatalogStop : world.archived invocation.keepRecent = [] ∨ invocation.catalogStop = none)
    (hdeltaStop : world.deltaArchived invocation.keepRecent = [] ∨ invocation.deltaStop = none)
    (hruns : (world.catalog.rows.map catalogStream.id).Nodup)
    (hdeltaRuns : (world.delta.rows.map deltaStream.id).Nodup)
    (hcatalog : Staged catalogStream (stamp invocation.catalogClock.stampedAt)
      (world.archived invocation.keepRecent) world.catalog staged.catalog)
    (hdelta : Staged deltaStream (stamp invocation.deltaClock.stampedAt)
      (world.deltaArchived invocation.keepRecent) world.delta staged.delta) :
    Leaves invocation world (exec (conclude invocation world.runs world.deltaRuns
      (chooseRuns world.runs invocation.keepRecent)
      (chooseDeltaRuns world.deltaRuns invocation.keepRecent) archives) staged).2 := by
  have hstaged (h : invocation.Doubles world) : Leaves invocation world staged :=
    ⟨hcatalog.outcome h, hdelta.outcome h⟩
  unfold conclude
  split
  · rename_i hnothing
    refine Leaves.seal ?_ _
    rcases hcatalog with ⟨hnil, hcatalog⟩ | ⟨hne, -⟩
    · rcases hdelta with ⟨hdeltaNil, hdelta⟩ | ⟨hne, -⟩
      · exact ⟨hcatalog ▸ .same (.inl hnil), hdelta ▸ .same (.inl hdeltaNil)⟩
      · exact absurd hnothing.2 hne
    · exact absurd hnothing.1 hne
  rename_i hsome
  cases hdry : invocation.dryRun with
  | true => exact (hstaged (.inl hdry)).receipt _
  | false =>
    have hcount : (catalogStream.remaining staged.catalog.rows
        (chooseRuns world.runs invocation.keepRecent).2).length
          = (chooseRuns world.runs invocation.keepRecent).1.card := by
      rw [hcatalog.rows]
      exact length_remaining hruns _
    have hdeltaCount : (deltaStream.remaining staged.delta.rows
        (chooseDeltaRuns world.deltaRuns invocation.keepRecent).2).length
          = (chooseDeltaRuns world.deltaRuns invocation.keepRecent).1.card := by
      rw [hdelta.rows]
      exact length_remaining hdeltaRuns _
    simp only [Bool.not_false, if_true]
    rw [exec_bind, exec_deleteRows hcount hdeltaCount]
    by_cases hcommit : invocation.stop = some .commit
    · rw [if_pos hcommit]
      apply hstaged
      right
      unfold Invocation.Interrupted
      rw [hcommit]
      exact not_and_or.1 hsome
    · rw [if_neg hcommit]
      have hdoubles : ¬invocation.Doubles world := by
        rintro (hdryRun | hinterrupted)
        · rw [hdry] at hdryRun
          cases hdryRun
        · exact hcommit (stop_eq_commit hcatalogStop hdeltaStop hinterrupted)
      exact Leaves.seal ⟨hcatalog.deleted hdoubles, hdelta.deleted hdoubles⟩ _

/-- The states that `_archive_rows` accepts, and tables with primary keys. -/
structure World.Regular (world : World) : Prop where
  catalogState : ∀ state, world.catalog.vdbRoot.state = some state →
    state.protocol = catalogStream.protocol ++ str ".state"
  deltaState : ∀ state, world.delta.vdbRoot.state = some state →
    state.protocol = deltaStream.protocol ++ str ".state"
  catalogIds : (world.catalog.rows.map catalogStream.id).Nodup
  deltaIds : (world.delta.rows.map deltaStream.id).Nodup

/-- The second archive and what follows it. -/
theorem delta_leaves {staged : World} {archive : Option Archive} (hregular : world.Regular)
    (hcatalogStop : world.archived invocation.keepRecent = [] ∨ invocation.catalogStop = none)
    (hcatalog : Staged catalogStream (stamp invocation.catalogClock.stampedAt)
      (world.archived invocation.keepRecent) world.catalog staged.catalog)
    (hdelta : staged.delta = world.delta) :
    Leaves invocation world (exec (do
      let deltaArchive ← archiveDeltaRuns gzip invocation
        (chooseDeltaRuns world.deltaRuns invocation.keepRecent).2 world.deltaRuns.length
      conclude invocation world.runs world.deltaRuns
        (chooseRuns world.runs invocation.keepRecent)
        (chooseDeltaRuns world.deltaRuns invocation.keepRecent)
        (archive, deltaArchive)) staged).2 := by
  rw [exec_bind, exec_archiveDeltaRuns]
  by_cases hnone : (chooseDeltaRuns world.deltaRuns invocation.keepRecent).2 = []
  · rw [if_pos hnone]
    exact conclude_leaves hcatalogStop (.inl hnone) hregular.catalogIds hregular.deltaIds hcatalog
      (.inl ⟨hnone, hdelta⟩)
  rw [if_neg hnone, hdelta]
  have harchiving := archiveRows_archiving gzip invocation.deltaStop invocation.deltaClock hnone
    world.deltaRuns.length hregular.deltaState
  revert harchiving
  generalize exec (archiveRows gzip deltaStream invocation.deltaStop invocation.deltaClock
    (chooseDeltaRuns world.deltaRuns invocation.keepRecent).2 world.deltaRuns.length) world.delta
    = outcome
  intro harchiving
  cases harchiving with
  | stopped hstop hne hside =>
    rename_i write side'
    have hdoubles (h : world.archived invocation.keepRecent ≠ []) : invocation.Doubles world := by
      right
      unfold Invocation.Interrupted
      rw [deltaStop_eq_some.1 hstop]
      cases write <;> first | exact ⟨h, hnone⟩ | exact hnone
    have hstopped : invocation.stop ≠ none := by
      rw [deltaStop_eq_some.1 hstop]
      exact nofun
    refine ⟨?_, .unlinked hnone hstopped hside⟩
    rcases hcatalog with ⟨hnil, heq⟩ | ⟨hne, hpushed⟩
    · exact heq ▸ .same (.inl hnil)
    · exact .copied hne (hdoubles hne) hpushed
  | halfway hstop hside =>
    have hdoubles : invocation.Doubles world := by
      right
      unfold Invocation.Interrupted
      rw [deltaStop_eq_some.1 hstop]
      exact hnone
    exact ⟨hcatalog.outcome hdoubles, .copied hnone hdoubles hside⟩
  | finished hstop hside =>
    exact conclude_leaves hcatalogStop (.inr hstop) hregular.catalogIds hregular.deltaIds hcatalog
      (.inr ⟨hnone, hside⟩)

theorem main_leaves (gzip : Bytes → Bytes) (invocation : Invocation) (hregular : world.Regular) :
    Leaves invocation world (exec (main gzip invocation) world).2 := by
  unfold main
  rw [exec_bind, Durable.exec_get]
  simp only
  rw [exec_bind, exec_archiveRuns]
  by_cases hnone : (chooseRuns world.runs invocation.keepRecent).2 = []
  · rw [if_pos hnone]
    exact delta_leaves hregular (.inl hnone) (.inl ⟨hnone, rfl⟩) rfl
  rw [if_neg hnone]
  have harchiving := archiveRows_archiving gzip invocation.catalogStop invocation.catalogClock
    hnone world.runs.length hregular.catalogState
  revert harchiving
  generalize exec (archiveRows gzip catalogStream invocation.catalogStop invocation.catalogClock
    (chooseRuns world.runs invocation.keepRecent).2 world.runs.length) world.catalog = outcome
  intro harchiving
  cases harchiving with
  | stopped hstop hne hside =>
    have hstopped : invocation.stop ≠ none := by
      rw [catalogStop_eq_some.1 hstop]
      exact nofun
    exact ⟨.unlinked hnone hstopped hside, .same (.inr hstopped)⟩
  | halfway hstop hside =>
    have hstopped : invocation.stop ≠ none := by
      rw [catalogStop_eq_some.1 hstop]
      exact nofun
    have hdoubles : invocation.Doubles world := by
      right
      unfold Invocation.Interrupted
      rw [catalogStop_eq_some.1 hstop]
      exact hnone
    exact ⟨.copied hnone hdoubles hside, .same (.inr hstopped)⟩
  | finished hstop hside =>
    exact delta_leaves hregular (.inr hstop) (.inr ⟨hnone, hside⟩) rfl

end

end IntegrityGuardian.SeedRetention
