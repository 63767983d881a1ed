import IntegrityGuardian.Canonical.Encoding
import IntegrityGuardian.Python.JsonDisplays
import IntegrityGuardian.SeedRetention.Archives

/-!
# Chains of archives

`state.json` names the newest manifest by its digest and every manifest names the one
before it.  What `_archive_rows` leaves is one archive more at the front of this chain,
or files that the chain does not reach.
-/

namespace IntegrityGuardian.SeedRetention

open Python Library

/-! ## Manifests -/

theorem Manifest.wf_payloadJson (manifest : Manifest) : manifest.payloadJson.wf = true := by
  refine Json.wf_fields (by simp) ?_
  simp [Json.wf]

theorem Manifest.wf_json (manifest : Manifest) : manifest.json.wf = true := by
  refine Json.wf_fields (by simp) ?_
  simp [Json.wf, manifest.wf_payloadJson]

theorem field_eq {v w : Json} (hv : v.wf = true) (hw : w.wf = true) (h : v.sortKeys = w.sortKeys)
    {key : Str} {x y : Json} (hx : v.get? key = some x) (hy : w.get? key = some y)
    (hleaf : y.Leaf) : x = y := by
  rw [Json.get?_leaf_of_sortKeys_eq hv hw h hleaf hy] at hx
  exact (Option.some.inj hx).symm

theorem payloadJson_injective {manifest manifest' : Manifest}
    (h : manifest.payloadJson.sortKeys = manifest'.payloadJson.sortKeys) :
    manifest.payloadName = manifest'.payloadName ∧ manifest.payloadBytes = manifest'.payloadBytes ∧
      manifest.payloadSha256 = manifest'.payloadSha256 := by
  have hfield {key : String} {x y : Json} := @field_eq _ _ manifest.wf_payloadJson
    manifest'.wf_payloadJson h (str key) x y
  have hname : Json.str manifest.payloadName = .str manifest'.payloadName :=
    hfield (Json.get?_fields _ "name") (Json.get?_fields _ _) trivial
  have hbytes : Json.int manifest.payloadBytes = .int manifest'.payloadBytes :=
    hfield (Json.get?_fields _ "bytes") (Json.get?_fields _ _) trivial
  have hsha256 : Json.str manifest.payloadSha256 = .str manifest'.payloadSha256 :=
    hfield (Json.get?_fields _ "sha256") (Json.get?_fields _ _) trivial
  exact ⟨Json.str.inj hname, Int.ofNat.inj (Json.int.inj hbytes), Json.str.inj hsha256⟩

theorem Manifest.get?_payload (manifest : Manifest) :
    manifest.json.get? (str "payload") = some manifest.payloadJson := Json.get?_fields _ _

theorem Manifest.bytes_injective : Function.Injective Manifest.bytes := by
  intro manifest manifest' h
  have hdumps : manifest.json.dumps = manifest'.json.dumps :=
    flatMap_utf8Octets_injective (List.append_cancel_right h)
  have hsort := Json.sortKeys_eq_of_dumps_eq manifest.wf_json manifest'.wf_json hdumps
  have hfield {key : String} {x y : Json} := @field_eq _ _ manifest.wf_json manifest'.wf_json hsort
    (str key) x y
  have hprotocol : Json.str manifest.protocol = .str manifest'.protocol :=
    hfield (Json.get?_fields _ "protocol") (Json.get?_fields _ _) trivial
  have hstream : Json.str manifest.stream = .str manifest'.stream :=
    hfield (Json.get?_fields _ "stream") (Json.get?_fields _ _) trivial
  have hcreated : Json.str manifest.createdUtc = .str manifest'.createdUtc :=
    hfield (Json.get?_fields _ "created_utc") (Json.get?_fields _ _) trivial
  have hbefore : Json.int manifest.sourceCountBefore = .int manifest'.sourceCountBefore :=
    hfield (Json.get?_fields _ "source_count_before") (Json.get?_fields _ _) trivial
  have harchived : Json.int manifest.archivedRunCount = .int manifest'.archivedRunCount :=
    hfield (Json.get?_fields _ "archived_run_count") (Json.get?_fields _ _) trivial
  have hfirst : Json.str manifest.firstFinishedAt = .str manifest'.firstFinishedAt :=
    hfield (Json.get?_fields _ "first_finished_at") (Json.get?_fields _ _) trivial
  have hlast : Json.str manifest.lastFinishedAt = .str manifest'.lastFinishedAt :=
    hfield (Json.get?_fields _ "last_finished_at") (Json.get?_fields _ _) trivial
  have hprevious : Json.str manifest.previousManifestSha256
      = .str manifest'.previousManifestSha256 :=
    hfield (Json.get?_fields _ "previous_manifest_sha256") (Json.get?_fields _ _) trivial
  have hpayload := Json.map_get?_of_sortKeys_eq manifest.wf_json manifest'.wf_json hsort
    (str "payload")
  rw [manifest.get?_payload, manifest'.get?_payload] at hpayload
  obtain ⟨hname, hbytes, hsha256⟩ := payloadJson_injective (Option.some.inj hpayload)
  exact Manifest.ext (Json.str.inj hprotocol) (Json.str.inj hstream) (Json.str.inj hcreated)
    (Int.ofNat.inj (Json.int.inj hbefore)) (Int.ofNat.inj (Json.int.inj harchived))
    (Json.str.inj hfirst) (Json.str.inj hlast) hname hbytes hsha256 (Json.str.inj hprevious)

/-! ## File names -/

section
variable {Row : Type} (stream : Stream Row)

theorem payloadName_injective : Function.Injective stream.payloadName := by
  intro stamp stamp' h
  simpa [Stream.payloadName] using h

theorem payloadName_ne_manifestName (stamp stamp' : Str) :
    stream.payloadName stamp ≠ stream.manifestName stamp' := by
  intro h
  have hpayload : (str ".jsonl.gz").getLast? = some (Json.ch 'z') := by decide
  have hmanifest : (str ".manifest.json").getLast? = some (Json.ch 'n') := by decide
  have hlast := congrArg List.getLast? h
  simp only [Stream.payloadName, Stream.manifestName, List.getLast?_append, hpayload, hmanifest,
    Option.some_or, Option.some.injEq] at hlast
  exact absurd hlast (by decide)

theorem manifestName_injective : Function.Injective stream.manifestName := by
  intro stamp stamp' h
  simpa [Stream.manifestName] using h

end

/-! ## The chain -/

section
variable {Row : Type}

/-- `sha256_file` of a manifest. -/
def Manifest.sha256 (manifest : Manifest) : Str := sha256Bytes manifest.bytes

/-- A manifest with a digest is in the directory. -/
def Root.Holds (root : Root Row) (digest : Str) (manifest : Manifest) : Prop :=
  manifest.sha256 = digest ∧ ∃ name : Str, root.files[name]? = some (.manifest manifest)

/-- The manifests that `state.json` leads to through `previous_manifest_sha256`. -/
inductive Root.Reaches (root : Root Row) : Manifest → Prop where
  | newest {state : State} {manifest : Manifest} :
    root.state = some state → root.Holds state.previousManifestSha256 manifest →
    root.Reaches manifest
  | previous {manifest earlier : Manifest} :
    root.Reaches manifest → root.Holds manifest.previousManifestSha256 earlier →
    root.Reaches earlier

/-- The rows of the payload that a reachable manifest names. -/
def Root.Archives (root : Root Row) (manifest : Manifest) (rows : List Row) : Prop :=
  root.Reaches manifest ∧ root.files[manifest.payloadName]? = some (.payload rows)

/-- Two different manifests in a directory with one digest. -/
def Root.Collides (root : Root Row) : Prop :=
  ∃ (name name' : Str) (manifest manifest' : Manifest),
    root.files[name]? = some (.manifest manifest) ∧
    root.files[name']? = some (.manifest manifest') ∧
    manifest.bytes ≠ manifest'.bytes ∧ sha256 manifest.bytes = sha256 manifest'.bytes

/-- The digest that `state.json` holds, if there is one. -/
def Root.head (root : Root Row) : Str := (root.state.map State.previousManifestSha256).getD []

variable (stream : Stream Row)

/-- The archives from a digest back to the first, the newest first. -/
inductive Chained (root : Root Row) : Str → List (Manifest × List Row) → Prop where
  | nil : Chained root [] []
  | cons {stamp : Str} {manifest : Manifest} {rows : List Row}
    {archives : List (Manifest × List Row)} :
    root.files[stream.manifestName stamp]? = some (.manifest manifest) →
    manifest.payloadName = stream.payloadName stamp →
    root.files[stream.payloadName stamp]? = some (.payload rows) →
    Chained root manifest.previousManifestSha256 archives →
    Chained root manifest.sha256 ((manifest, rows) :: archives)

/-- The archives of a directory, as its chain has them. -/
structure Linked (root : Root Row) (archives : List (Manifest × List Row)) : Prop where
  protocol : ∀ state, root.state = some state → state.protocol = stream.protocol ++ str ".state"
  chained : Chained stream root root.head archives
  names : (archives.map fun archive => archive.1.payloadName).Nodup

variable {stream} {root root' : Root Row} {archives : List (Manifest × List Row)}

theorem sha256_ne_nil (manifest : Manifest) : manifest.sha256 ≠ [] := by
  intro h
  have hlength := congrArg List.length h
  rw [Manifest.sha256, sha256Bytes, length_hex, length_sha256] at hlength
  cases hlength

variable {manifest : Manifest} {digest : Str}

theorem Chained.holds (h : Chained stream root digest archives) : ∀ archive ∈ archives, ∃ stamp,
      root.files[stream.manifestName stamp]? = some (.manifest archive.1) ∧
      archive.1.payloadName = stream.payloadName stamp ∧
      root.files[archive.1.payloadName]? = some (.payload archive.2) := by
  induction h with
  | nil => nofun
  | cons hmanifest hname hpayload _ ih =>
    rw [List.forall_mem_cons]
    exact ⟨⟨_, hmanifest, hname, hname ▸ hpayload⟩, ih⟩

theorem Chained.frame (h : Chained stream root digest archives) {stamp : Str}
    (hfresh : ∀ archive ∈ archives, archive.1.payloadName ≠ stream.payloadName stamp)
    (hfiles : ∀ name, name ≠ stream.payloadName stamp → name ≠ stream.manifestName stamp →
      root'.files[name]? = root.files[name]?) : Chained stream root' digest archives := by
  induction h with
  | nil => exact .nil
  | @cons other manifest rows archives hmanifest hname hpayload _ ih =>
    rw [List.forall_mem_cons] at hfresh
    have hne : other ≠ stamp := fun heq => hfresh.1 (heq ▸ hname)
    refine @Chained.cons _ _ _ other _ _ _ ?_ hname ?_ (ih hfresh.2)
    · rw [hfiles _ (payloadName_ne_manifestName stream stamp other).symm
        fun heq => hne (manifestName_injective stream heq)]
      exact hmanifest
    · rw [hfiles _ (fun heq => hne (payloadName_injective stream heq))
        (payloadName_ne_manifestName stream other stamp)]
      exact hpayload

theorem reaches_head (h : root.Holds root.head manifest) : root.Reaches manifest := by
  cases hstate : root.state with
  | none =>
    rw [Root.head, hstate] at h
    exact absurd h.1 (sha256_ne_nil manifest)
  | some state =>
    rw [Root.head, hstate] at h
    exact .newest hstate h

theorem Chained.reaches (h : Chained stream root digest archives)
    (hdigest : ∀ manifest, root.Holds digest manifest → root.Reaches manifest) :
    ∀ archive ∈ archives, root.Archives archive.1 archive.2 := by
  induction h with
  | nil => nofun
  | cons hmanifest hname hpayload _ ih =>
    have hreaches := hdigest _ ⟨rfl, _, hmanifest⟩
    rw [List.forall_mem_cons]
    exact ⟨⟨hreaches, hname ▸ hpayload⟩, ih fun earlier hholds => .previous hreaches hholds⟩

theorem Linked.archives_of_mem (h : Linked stream root archives) :
    ∀ archive ∈ archives, root.Archives archive.1 archive.2 :=
  h.chained.reaches fun _ => reaches_head

/-! ## Without collisions the chain is all that is reachable -/

theorem eq_of_holds (hcollides : ¬root.Collides) {manifest' : Manifest}
    (h : root.Holds digest manifest) (h' : root.Holds digest manifest') : manifest = manifest' := by
  obtain ⟨hdigest, name, hname⟩ := h
  obtain ⟨hdigest', name', hname'⟩ := h'
  have hsha256 : sha256 manifest.bytes = sha256 manifest'.bytes :=
    hex_injective (hdigest.trans hdigest'.symm)
  by_contra hne
  exact hcollides ⟨name, name', manifest, manifest', hname, hname',
    fun hbytes => hne (Manifest.bytes_injective hbytes), hsha256⟩

theorem Chained.mem_of_holds (h : Chained stream root digest archives)
    (hcollides : ¬root.Collides) (hholds : root.Holds digest manifest) :
    ∃ rows, (manifest, rows) ∈ archives := by
  cases h with
  | nil => exact absurd hholds.1 (sha256_ne_nil manifest)
  | cons hmanifest hname hpayload _ =>
    rw [eq_of_holds hcollides hholds ⟨rfl, _, hmanifest⟩]
    exact ⟨_, List.mem_cons_self⟩

theorem Chained.mem_previous (h : Chained stream root digest archives)
    (hcollides : ¬root.Collides) {earlier : Manifest} {rows : List Row}
    (hmem : (manifest, rows) ∈ archives)
    (hholds : root.Holds manifest.previousManifestSha256 earlier) :
    ∃ rows, (earlier, rows) ∈ archives := by
  induction h with
  | nil => cases hmem
  | cons _ _ _ hrest ih =>
    cases List.mem_cons.1 hmem with
    | inl heq =>
      cases heq
      obtain ⟨rows, hrows⟩ := hrest.mem_of_holds hcollides hholds
      exact ⟨rows, List.mem_cons_of_mem _ hrows⟩
    | inr hmem =>
      obtain ⟨rows, hrows⟩ := ih hmem
      exact ⟨rows, List.mem_cons_of_mem _ hrows⟩

theorem Linked.mem_of_reaches (h : Linked stream root archives) (hcollides : ¬root.Collides)
    (hreaches : root.Reaches manifest) : ∃ rows, (manifest, rows) ∈ archives := by
  induction hreaches with
  | newest hstate hholds =>
    refine h.chained.mem_of_holds hcollides ?_
    rw [Root.head, hstate]
    exact hholds
  | previous _ hholds ih =>
    obtain ⟨rows, hrows⟩ := ih
    exact h.chained.mem_previous hcollides hrows hholds

theorem Linked.mem_iff (h : Linked stream root archives) (hcollides : ¬root.Collides)
    (manifest : Manifest) (rows : List Row) :
    (manifest, rows) ∈ archives ↔ root.Archives manifest rows := by
  constructor
  · exact h.archives_of_mem _
  · rintro ⟨hreaches, hpayload⟩
    obtain ⟨rows', hrows'⟩ := h.mem_of_reaches hcollides hreaches
    obtain ⟨-, -, -, hpayload'⟩ := h.chained.holds _ hrows'
    cases Option.some.inj (hpayload.symm.trans hpayload')
    exact hrows'

theorem Linked.nodup (h : Linked stream root archives) : archives.Nodup := h.names.of_map _

/-! ## What one call leaves -/

variable (stream)

/-- Nothing but files under one stamp has changed, and `state.json` does not name them. -/
structure Unlinked (stamp : Str) (side side' : Side Row) : Prop where
  rows : side'.rows = side.rows
  state : side'.vdbRoot.state = side.vdbRoot.state
  files : ∀ name : Str, name ≠ stream.payloadName stamp → name ≠ stream.manifestName stamp →
    side'.vdbRoot.files[name]? = side.vdbRoot.files[name]?

/-- An archive of some rows is at the front of the chain, and the table has not changed. -/
structure Pushed (stamp : Str) (archived : List Row) (side side' : Side Row) : Prop where
  rows : side'.rows = side.rows
  files : ∀ name : Str, name ≠ stream.payloadName stamp → name ≠ stream.manifestName stamp →
    side'.vdbRoot.files[name]? = side.vdbRoot.files[name]?
  payload : side'.vdbRoot.files[stream.payloadName stamp]? = some (.payload archived)
  front : ∃ manifest state, side'.vdbRoot.files[stream.manifestName stamp]?
      = some (.manifest manifest) ∧
    manifest.payloadName = stream.payloadName stamp ∧
    manifest.previousManifestSha256 = side.vdbRoot.head ∧
    side'.vdbRoot.state = some state ∧ state.protocol = stream.protocol ++ str ".state" ∧
    state.previousManifestSha256 = manifest.sha256 ∧
    state.archiveCount = (side.vdbRoot.state.map State.archiveCount).getD 0 + 1

variable {stream} {stamp : Str} {archived : List Row} {side side' : Side Row}

theorem Linked.unlinked (h : Linked stream side.vdbRoot archives)
    (hfresh : ∀ archive ∈ archives, archive.1.payloadName ≠ stream.payloadName stamp)
    (hside : Unlinked stream stamp side side') : Linked stream side'.vdbRoot archives where
  protocol state hstate := h.protocol state (hside.state ▸ hstate)
  chained := by
    rw [Root.head, hside.state]
    exact h.chained.frame hfresh hside.files
  names := h.names

theorem Linked.pushed (h : Linked stream side.vdbRoot archives)
    (hfresh : ∀ archive ∈ archives, archive.1.payloadName ≠ stream.payloadName stamp)
    (hside : Pushed stream stamp archived side side') :
    ∃ manifest, Linked stream side'.vdbRoot ((manifest, archived) :: archives) := by
  obtain ⟨manifest, state, hmanifest, hname, hprevious, hstate, hprotocol, hhead, -⟩ := hside.front
  refine ⟨manifest, ?_, ?_, ?_⟩
  · intro other hother
    cases Option.some.inj (hstate.symm.trans hother)
    exact hprotocol
  · have hhead' : side'.vdbRoot.head = manifest.sha256 := by
      rw [Root.head, hstate]
      exact hhead
    rw [hhead']
    refine .cons hmanifest hname hside.payload ?_
    rw [hprevious]
    exact h.chained.frame hfresh hside.files
  · rw [List.map_cons, List.nodup_cons]
    refine ⟨?_, h.names⟩
    intro hmem
    obtain ⟨archive, harchive, heq⟩ := List.mem_map.1 hmem
    exact hfresh archive harchive (heq.trans hname)

end

end IntegrityGuardian.SeedRetention
