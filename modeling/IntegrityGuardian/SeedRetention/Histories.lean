import IntegrityGuardian.SeedRetention.Invocations
import Mathlib.Data.List.Flatten

/-!
# Histories of a catalog

Runs are inserted into both tables and invocations archive them, in any order.  Where
every archive gets a stamp of its own, a dry run has nothing to archive and no invocation
stops between its `state.json` and its commit, tables and archives together hold every
inserted row once.
-/

namespace IntegrityGuardian.SeedRetention

open Python Library
open Durable (exec)

/-- The catalog with its archives, and every row that was ever inserted. -/
structure History where
  world : World
  runs : List CatalogRun
  deltaRuns : List DeltaRun

inductive Step where
  | insertRun (row : CatalogRun)
  | insertDeltaRun (row : DeltaRun)
  | retain (invocation : Invocation)

/-- A table without rows and without archives. -/
def Side.empty {Row : Type} : Side Row := ⟨[], ⟨∅, none⟩, ⟨∅, none⟩⟩

def History.empty : History := ⟨⟨.empty, .empty, ∅⟩, [], []⟩

section
variable [CaseData] (gzip : Bytes → Bytes)

/-- One step; the primary keys refuse a row whose identifier is taken. -/
def History.step (history : History) : Step → History
  | .insertRun row =>
    if catalogStream.id row ∈ history.world.catalog.rows.map catalogStream.id then history
    else
      { history with
        world.catalog.rows := history.world.catalog.rows ++ [row]
        runs := history.runs ++ [row] }
  | .insertDeltaRun row =>
    if deltaStream.id row ∈ history.world.delta.rows.map deltaStream.id then history
    else
      { history with
        world.delta.rows := history.world.delta.rows ++ [row]
        deltaRuns := history.deltaRuns ++ [row] }
  | .retain invocation => { history with world := (exec (main gzip invocation) history.world).2 }

def History.run (history : History) (steps : List Step) : History :=
  steps.foldl (History.step gzip) history

end

/-! ## What the claim is about -/

section
variable [CaseData]

/-- An invocation archives nothing. -/
def World.Quiet (world : World) (keepRecent : Int) : Prop :=
  world.archived keepRecent = [] ∧ world.deltaArchived keepRecent = []

/-- An invocation whose archives get stamps that their chains do not have yet. -/
structure Invocation.Fresh (invocation : Invocation) (world : World) : Prop where
  catalogStamp : world.archived invocation.keepRecent ≠ [] → ∀ manifest,
    world.catalog.vdbRoot.Reaches manifest →
    manifest.payloadName ≠ catalogStream.payloadName (stamp invocation.catalogClock.stampedAt)
  deltaStamp : world.deltaArchived invocation.keepRecent ≠ [] → ∀ manifest,
    world.delta.vdbRoot.Reaches manifest →
    manifest.payloadName ≠ deltaStream.payloadName (stamp invocation.deltaClock.stampedAt)

/-- An invocation that also archives only what it then deletes. -/
structure Invocation.Orderly (invocation : Invocation) (world : World) : Prop
    extends invocation.Fresh world where
  dryRun : invocation.dryRun = true → world.Quiet invocation.keepRecent
  uninterrupted : ¬invocation.Interrupted world

/-- Every invocation of a history has a property where it is made. -/
def History.Each (gzip : Bytes → Bytes) (property : Invocation → World → Prop) :
    History → List Step → Prop
  | _, [] => True
  | history, step :: steps =>
    (∀ invocation, step = .retain invocation → property invocation history.world) ∧
      (history.step gzip step).Each gzip property steps

end

/-! ## Exactly once -/

section
variable {Row : Type} [DecidableEq Row] {side : Side Row} {inserted : List Row}

variable {archives : List (Manifest × List Row)}

end

/-! ## One step -/

section
variable {Row : Type} {stream : Stream Row} {side side' : Side Row} {inserted : List Row}

/-- The archives of a table with its rows make up what was inserted. -/
def Balanced (stream : Stream Row) (side : Side Row) (inserted : List Row) : Prop :=
  ∃ archives, Linked stream side.vdbRoot archives ∧
    inserted.Perm (side.rows ++ archives.flatMap Prod.snd)

theorem Balanced.insert (h : Balanced stream side inserted) (row : Row) :
    Balanced stream { side with rows := side.rows ++ [row] } (inserted ++ [row]) := by
  obtain ⟨archives, hlinked, hperm⟩ := h
  refine ⟨archives, hlinked, ?_⟩
  have hswap : (side.rows ++ archives.flatMap Prod.snd ++ [row]).Perm
      (side.rows ++ [row] ++ archives.flatMap Prod.snd) := by
    rw [List.append_assoc, List.append_assoc]
    exact List.perm_append_comm.append_left _
  exact (hperm.append_right [row]).trans hswap

variable [CaseData] {stopped doubled : Prop} {stamp : Str} {archived : List Row}
  {keepRecent : Int}

omit [CaseData] in
theorem Outcome.linked (hside : Outcome stream stopped doubled stamp archived side side')
    {archives : List (Manifest × List Row)} (hlinked : Linked stream side.vdbRoot archives)
    (hfresh : archived ≠ [] → ∀ manifest, side.vdbRoot.Reaches manifest →
      manifest.payloadName ≠ stream.payloadName stamp) :
    (side'.rows = side.rows ∧ Linked stream side'.vdbRoot archives) ∨
    ∃ manifest, Linked stream side'.vdbRoot ((manifest, archived) :: archives) ∧
      ((archived ≠ [] ∧ doubled ∧ side'.rows = side.rows) ∨
        side'.rows = stream.remaining side.rows archived) := by
  have hnames (hne : archived ≠ []) :
      ∀ archive ∈ archives, archive.1.payloadName ≠ stream.payloadName stamp :=
    fun archive harchive => hfresh hne _ (hlinked.archives_of_mem archive harchive).1
  cases hside with
  | same => exact .inl ⟨rfl, hlinked⟩
  | unlinked hne _ h => exact .inl ⟨h.rows, hlinked.unlinked (hnames hne) h⟩
  | copied hne hdoubled h =>
    obtain ⟨manifest, hlinked'⟩ := hlinked.pushed (hnames hne) h
    exact .inr ⟨manifest, hlinked', .inl ⟨hne, hdoubled, h.rows⟩⟩
  | moved hne _ h =>
    obtain ⟨manifest, hlinked'⟩ := hlinked.pushed (hnames hne) h
    exact .inr ⟨manifest, hlinked', .inr rfl⟩

theorem perm_remaining (stream : Stream Row) (rows : List Row) (keepRecent : Int) :
    rows.Perm (stream.remaining rows (stream.choose (stream.ordered rows) keepRecent).2
      ++ (stream.choose (stream.ordered rows) keepRecent).2) := by
  rw [choose_ordered, Policy.remaining, filter_archived]
  exact perm_kept_append_archived rows keepRecent

theorem Balanced.outcome (h : Balanced stream side inserted)
    (hside : Outcome stream stopped doubled stamp
      (stream.choose (stream.ordered side.rows) keepRecent).2 side side')
    (hdoubled : (stream.choose (stream.ordered side.rows) keepRecent).2 ≠ [] → ¬doubled)
    (hfresh : (stream.choose (stream.ordered side.rows) keepRecent).2 ≠ [] → ∀ manifest,
      side.vdbRoot.Reaches manifest → manifest.payloadName ≠ stream.payloadName stamp) :
    Balanced stream side' inserted := by
  obtain ⟨archives, hlinked, hperm⟩ := h
  rcases hside.linked hlinked hfresh with ⟨hrows, hlinked'⟩ | ⟨manifest, hlinked', hrows⟩
  · exact ⟨archives, hlinked', hrows ▸ hperm⟩
  · rcases hrows with ⟨hne, hdoubles, -⟩ | hrows
    · exact absurd hdoubles (hdoubled hne)
    · refine ⟨_, hlinked', ?_⟩
      rw [hrows, List.flatMap_cons, ← List.append_assoc]
      exact hperm.trans ((perm_remaining stream side.rows keepRecent).append_right _)

/-- What was inserted is in a table or in one of its archives. -/
def Covered (stream : Stream Row) (side : Side Row) (inserted : List Row) : Prop :=
  ∃ archives, Linked stream side.vdbRoot archives ∧
    ∀ row ∈ inserted, row ∈ side.rows ∨ ∃ archive ∈ archives, row ∈ archive.2

omit [CaseData] in
theorem covered_empty : Covered stream .empty [] :=
  ⟨[], ⟨nofun, .nil, List.nodup_nil⟩, nofun⟩

omit [CaseData] in
theorem Covered.insert (h : Covered stream side inserted) (row : Row) :
    Covered stream { side with rows := side.rows ++ [row] } (inserted ++ [row]) := by
  obtain ⟨archives, hlinked, hcovers⟩ := h
  refine ⟨archives, hlinked, ?_⟩
  intro other hother
  rcases List.mem_append.1 hother with hmem | hmem
  · exact (hcovers other hmem).imp_left fun hrow => List.mem_append_left [row] hrow
  · exact .inl (List.mem_append_right side.rows hmem)

omit [CaseData] in
theorem Covered.archives (h : Covered stream side inserted) : ∀ row ∈ inserted,
    row ∈ side.rows ∨ ∃ manifest rows, side.vdbRoot.Archives manifest rows ∧ row ∈ rows := by
  obtain ⟨archives, hlinked, hcovers⟩ := h
  intro row hrow
  exact (hcovers row hrow).imp_right fun ⟨archive, harchive, hmem⟩ =>
    ⟨archive.1, archive.2, hlinked.archives_of_mem archive harchive, hmem⟩

theorem Covered.outcome (h : Covered stream side inserted)
    (hside : Outcome stream stopped doubled stamp
      (stream.choose (stream.ordered side.rows) keepRecent).2 side side')
    (hfresh : (stream.choose (stream.ordered side.rows) keepRecent).2 ≠ [] → ∀ manifest,
      side.vdbRoot.Reaches manifest → manifest.payloadName ≠ stream.payloadName stamp) :
    Covered stream side' inserted := by
  obtain ⟨archives, hlinked, hcovers⟩ := h
  rcases hside.linked hlinked hfresh with ⟨hrows, hlinked'⟩ | ⟨manifest, hlinked', hrows⟩
  · exact ⟨archives, hlinked', hrows ▸ hcovers⟩
  · refine ⟨_, hlinked', ?_⟩
    intro row hrow
    rcases hcovers row hrow with hmem | ⟨archive, harchive, hmem⟩
    · rcases hrows with ⟨-, -, hrows⟩ | hrows
      · exact .inl (hrows ▸ hmem)
      · rw [hrows]
        have hsplit := (perm_remaining stream side.rows keepRecent).mem_iff.1 hmem
        exact (List.mem_append.1 hsplit).imp_right fun hmem => ⟨_, List.mem_cons_self, hmem⟩
    · exact .inr ⟨archive, List.mem_cons_of_mem _ harchive, hmem⟩

omit [CaseData] in
theorem Outcome.regular (hside : Outcome stream stopped doubled stamp archived side side')
    (hstate : ∀ state, side.vdbRoot.state = some state →
      state.protocol = stream.protocol ++ str ".state")
    (hids : (side.rows.map stream.id).Nodup) :
    (∀ state, side'.vdbRoot.state = some state →
      state.protocol = stream.protocol ++ str ".state") ∧ (side'.rows.map stream.id).Nodup := by
  have hpushed {t : Side Row} (h : Pushed stream stamp archived side t) :
      ∀ state, t.vdbRoot.state = some state →
        state.protocol = stream.protocol ++ str ".state" := by
    obtain ⟨-, saved, -, -, -, hsaved, hprotocol, -, -⟩ := h.front
    intro state hstate
    rw [← Option.some.inj (hsaved.symm.trans hstate)]
    exact hprotocol
  cases hside with
  | same => exact ⟨hstate, hids⟩
  | unlinked _ _ h =>
    rw [h.state, h.rows]
    exact ⟨hstate, hids⟩
  | copied _ _ h =>
    rw [h.rows]
    exact ⟨hpushed h, hids⟩
  | moved _ _ h =>
    have hsaved := hpushed h
    exact ⟨hsaved, hids.sublist (List.filter_sublist.map _)⟩

omit [CaseData] in
theorem Pushed.ne (h : Pushed stream stamp archived side side') (rows : List Row) :
    { side' with rows := rows } ≠ side := by
  intro heq
  obtain ⟨-, state, -, -, -, hstate, -, -, hcount⟩ := h.front
  have hsame : side.vdbRoot.state = some state := by
    rw [← heq]
    exact hstate
  rw [hsame, Option.map_some, Option.getD_some] at hcount
  omega

omit [CaseData] in
theorem Outcome.pushed (hside : Outcome stream stopped doubled stamp archived side side')
    (hstopped : ¬stopped) (hdoubled : doubled) (hne : archived ≠ []) :
    Pushed stream stamp archived side side' := by
  cases hside with
  | same h => exact absurd h (not_or.2 ⟨hne, hstopped⟩)
  | unlinked _ h _ => exact absurd h hstopped
  | copied _ _ h => exact h
  | moved _ h _ => exact absurd hdoubled h

end

/-! ## Whole histories -/

section
variable [CaseData] {gzip : Bytes → Bytes} {history : History} {invocation : Invocation}

omit [CaseData] in
theorem nodup_insert {Row : Type} {id : Row → Str} {rows : List Row} {row : Row}
    (h : (rows.map id).Nodup) (hrow : id row ∉ rows.map id) : ((rows ++ [row]).map id).Nodup := by
  rw [List.map_append, List.nodup_append]
  exact ⟨h, List.nodup_singleton _, by simpa using hrow⟩

theorem regular_step (h : history.world.Regular) (step : Step) :
    (history.step gzip step).world.Regular := by
  cases step with
  | insertRun row =>
    simp only [History.step]
    split
    · exact h
    · rename_i hrow
      exact ⟨h.catalogState, h.deltaState, nodup_insert h.catalogIds hrow, h.deltaIds⟩
  | insertDeltaRun row =>
    simp only [History.step]
    split
    · exact h
    · rename_i hrow
      exact ⟨h.catalogState, h.deltaState, h.catalogIds, nodup_insert h.deltaIds hrow⟩
  | retain invocation =>
    have hleaves := main_leaves gzip invocation h
    have hcatalog := hleaves.catalog.regular h.catalogState h.catalogIds
    have hdelta := hleaves.delta.regular h.deltaState h.deltaIds
    exact ⟨hcatalog.1, hdelta.1, hcatalog.2, hdelta.2⟩

theorem regular_empty : History.empty.world.Regular :=
  ⟨nofun, nofun, List.nodup_nil, List.nodup_nil⟩

theorem run_invariant {property : Invocation → World → Prop} {P : History → Prop}
    (hstep : ∀ history step, history.world.Regular → P history →
      (∀ invocation, step = .retain invocation → property invocation history.world) →
      P (history.step gzip step))
    {steps : List Step} (hregular : history.world.Regular) (h : P history)
    (heach : history.Each gzip property steps) : P (history.run gzip steps) := by
  induction steps generalizing history with
  | nil => exact h
  | cons step steps ih =>
    exact ih (regular_step hregular step) (hstep history step hregular h heach.1) heach.2

/-- Both tables make up, with their archives, what was inserted. -/
structure History.Balanced (history : History) : Prop where
  catalog : SeedRetention.Balanced catalogStream history.world.catalog history.runs
  delta : SeedRetention.Balanced deltaStream history.world.delta history.deltaRuns

variable {step : Step}

/-- Every inserted row is in its table or in one of its archives. -/
structure History.Covered (history : History) : Prop where
  catalog : SeedRetention.Covered catalogStream history.world.catalog history.runs
  delta : SeedRetention.Covered deltaStream history.world.delta history.deltaRuns

theorem covered_step (hregular : history.world.Regular) (h : history.Covered)
    (hfresh : ∀ invocation, step = .retain invocation → invocation.Fresh history.world) :
    (history.step gzip step).Covered := by
  cases step with
  | insertRun row =>
    simp only [History.step]
    split
    · exact h
    · exact ⟨h.catalog.insert row, h.delta⟩
  | insertDeltaRun row =>
    simp only [History.step]
    split
    · exact h
    · exact ⟨h.catalog, h.delta.insert row⟩
  | retain invocation =>
    have hleaves := main_leaves gzip invocation hregular
    exact ⟨h.catalog.outcome hleaves.catalog (hfresh invocation rfl).catalogStamp,
      h.delta.outcome hleaves.delta (hfresh invocation rfl).deltaStamp⟩

/-- Dry runs and stops lose nothing: where every archive gets a stamp of its own, an inserted row
is in its table or in an archive that `state.json` leads to. -/
theorem nothing_lost {steps : List Step}
    (hfresh : History.empty.Each gzip Invocation.Fresh steps) :
    (∀ row ∈ (History.empty.run gzip steps).runs,
      row ∈ (History.empty.run gzip steps).world.catalog.rows ∨ ∃ manifest rows,
        (History.empty.run gzip steps).world.catalog.vdbRoot.Archives manifest rows ∧ row ∈ rows) ∧
    ∀ row ∈ (History.empty.run gzip steps).deltaRuns,
      row ∈ (History.empty.run gzip steps).world.delta.rows ∨ ∃ manifest rows,
        (History.empty.run gzip steps).world.delta.vdbRoot.Archives manifest rows ∧ row ∈ rows := by
  have hcovered := run_invariant (fun _ _ => covered_step) regular_empty
    (P := History.Covered) ⟨covered_empty, covered_empty⟩ hfresh
  exact ⟨hcovered.catalog.archives, hcovered.delta.archives⟩

end

namespace Sample

attribute [local instance] asciiCaseData

def text (s : String) : Text := ⟨str s, any_isSurrogate_str s⟩

/-- A passing run of one profile. -/
def run (runId finishedAt : String) : CatalogRun where
  runId := text runId
  profile := text "systemd-live-sync"
  sourceNamespace := text "seed"
  sourceDigest := text ""
  catalogDigest := text ""
  eventCount := 0
  insertedEventCount := 0
  existingEventCount := 0
  entityCount := 0
  relationCount := 0
  taskCount := 0
  activeTaskCount := 0
  lockCount := 0
  activeLockCount := 0
  topicCount := 0
  homeRecordCount := 0
  result := text "PASS"
  startedAt := text ""
  finishedAt := text finishedAt

/-- Three runs of one day. -/
def inserts : List Step :=
  [.insertRun (run "run-1" "2026-08-01T10:00:00Z"), .insertRun (run "run-2" "2026-08-01T11:00:00Z"),
    .insertRun (run "run-3" "2026-08-01T12:00:00Z")]

def invocation (dryRun : Bool) : Invocation where
  keepRecent := 1
  dryRun
  catalogClock := ⟨0, 0, 0⟩
  deltaClock := ⟨0, 0, 0⟩
  receiptAt := 0
  stop := none

theorem archived_inserts : (History.empty.run id inserts).world.archived 1
    = [run "run-2" "2026-08-01T11:00:00Z"] := by
  decide +kernel

theorem fresh_inserts (dryRun : Bool) :
    (invocation dryRun).Fresh (History.empty.run id inserts).world := by
  have hstate : (History.empty.run id inserts).world.catalog.vdbRoot.state = none := by
    decide +kernel
  have hdelta : (History.empty.run id inserts).world.deltaArchived 1 = [] := by decide +kernel
  refine ⟨?_, fun hne => absurd hdelta hne⟩
  intro _ manifest hreaches
  exfalso
  induction hreaches with
  | newest h _ =>
    rw [hstate] at h
    cases h
  | previous _ _ ih => exact ih

/-- A dry run with a run to archive, after which every inserted run is still found. -/
theorem dry_run_keeps_inserts :
    (History.empty.run id inserts).world.archived 1 ≠ [] ∧
    ∀ row ∈ (History.empty.run id (inserts ++ [.retain (invocation true)])).runs,
      row ∈ (History.empty.run id (inserts ++ [.retain (invocation true)])).world.catalog.rows ∨
      ∃ manifest rows,
        (History.empty.run id
          (inserts ++ [.retain (invocation true)])).world.catalog.vdbRoot.Archives manifest rows ∧
        row ∈ rows := by
  have hfresh : History.empty.Each id Invocation.Fresh (inserts ++ [.retain (invocation true)]) := by
    refine ⟨nofun, nofun, nofun, ?_, trivial⟩
    rintro _ ⟨⟩
    exact fresh_inserts true
  rw [archived_inserts]
  exact ⟨nofun, (nothing_lost hfresh).1⟩

end Sample

end IntegrityGuardian.SeedRetention
