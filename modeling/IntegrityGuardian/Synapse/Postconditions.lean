import IntegrityGuardian.Synapse.Walks

/-!
# What postconditions establish

`_apply_postconditions` takes its conditions one after another, `_condition_holds`
asks for each of them in the facts that are left.  A later assignment can undo an
earlier condition, a missing fact is read as `None` by one of the two only, and
an equal value need not be the same value.
-/

namespace IntegrityGuardian.Synapse

open Python Library

/-! ## One fact -/

/-- Whether a condition holds of the value its fact has. -/
def Condition.holdsOf (condition : Condition) (value : Option Json) : Bool :=
  match condition.operator with
  | .equals => value.any condition.value.equals
  | .notEquals => value.all fun v => !condition.value.equals v
  | .present => value.isSome
  | .absent => value.isNone

theorem conditionHolds_eq (condition : Condition) (facts : Facts) :
    conditionHolds condition facts = condition.holdsOf facts[condition.fact]? := by
  unfold conditionHolds Condition.holdsOf
  cases condition.operator with
  | equals => cases facts[condition.fact]? <;> rfl
  | notEquals => cases facts[condition.fact]? <;> rfl
  | present => rfl
  | absent => rfl

/-- What a condition assigns to its fact, when it assigns. -/
def Condition.assigned (condition : Condition) : Option (Option Json) :=
  match condition.operator with
  | .equals => some (some condition.value.json)
  | .absent => some none
  | .notEquals => none
  | .present => none

/-- Whether a condition is a check that fails of the value its fact has. -/
def Condition.fails (condition : Condition) (value : Option Json) : Bool :=
  match condition.operator with
  | .equals => false
  | .absent => false
  | .present => value.isNone
  | .notEquals => condition.value.equals (value.getD .null)

/-- The last assignment of a list to a fact. -/
def lastAssigned (fact : Str) : List Condition → Option (Option Json)
  | [] => none
  | condition :: rest =>
    (lastAssigned fact rest).or (if condition.fact = fact then condition.assigned else none)

/-- The value of a fact behind the assignments of a list. -/
def valueAfter (facts : Facts) (conditions : List Condition) (fact : Str) : Option Json :=
  (lastAssigned fact conditions).getD facts[fact]?

theorem equals_self (p : Primitive) : p.equals p.json = true := by
  cases p <;> simp [Primitive.equals, Primitive.json]

theorem equals_through {p q : Primitive} {v : Json} (h : q.equals v = true) :
    p.equals q.json = p.equals v := by
  cases q <;> cases v <;> simp only [Primitive.equals, reduceCtorEq, beq_iff_eq] at h <;>
    cases p <;> simp [Primitive.equals, Primitive.json, h] <;> grind

variable {condition : Condition} {facts : Facts} {conditions : List Condition} {value : Option Json}

theorem Condition.holdsOf_assigned
    (h : condition.assigned = some value) : condition.holdsOf value = true := by
  unfold Condition.assigned at h
  unfold Condition.holdsOf
  cases hoperator : condition.operator with
  | equals =>
    rw [hoperator] at h
    cases h
    exact equals_self condition.value
  | absent =>
    rw [hoperator] at h
    cases h
    rfl
  | notEquals => simp [hoperator] at h
  | present => simp [hoperator] at h

theorem Condition.holdsOf_of_passes
    (hassigned : condition.assigned = none) (hpasses : condition.fails value = false) :
    condition.holdsOf value = true := by
  unfold Condition.assigned at hassigned
  unfold Condition.fails at hpasses
  unfold Condition.holdsOf
  cases hoperator : condition.operator with
  | equals => simp [hoperator] at hassigned
  | absent => simp [hoperator] at hassigned
  | present =>
    rw [hoperator] at hpasses
    cases value with
    | none => cases hpasses
    | some v => rfl
  | notEquals =>
    rw [hoperator] at hpasses
    cases value with
    | none => rfl
    | some v => simpa using hpasses

/-! ## Applying a list -/

theorem lastAssigned_append (fact : Str) (before after : List Condition) :
    lastAssigned fact (before ++ after) =
      (lastAssigned fact after).or (lastAssigned fact before) := by
  induction before with
  | nil => simp [lastAssigned]
  | cons condition before ih =>
    rw [List.cons_append, lastAssigned, ih, Option.or_assoc, lastAssigned]

theorem valueAfter_append (facts : Facts) (before after : List Condition) (fact : Str) :
    valueAfter facts (before ++ after) fact =
      (lastAssigned fact after).getD (valueAfter facts before fact) := by
  unfold valueAfter
  rw [lastAssigned_append]
  cases lastAssigned fact after <;> rfl

theorem applyPostcondition_cases (facts : Facts) (condition : Condition) :
    (condition.fails facts[condition.fact]? = true ∧
        applyPostcondition facts condition = none) ∨
      condition.fails facts[condition.fact]? = false ∧
        ∃ next, applyPostcondition facts condition = some next ∧
          ∀ fact : Str, next[fact]? = valueAfter facts [condition] fact := by
  unfold applyPostcondition Condition.fails valueAfter lastAssigned Condition.assigned
  cases condition.operator with
  | equals =>
    refine .inr ⟨rfl, _, rfl, ?_⟩
    intro fact
    rw [Dict.get_insert]
    by_cases hfact : condition.fact = fact <;> simp [hfact, lastAssigned]
  | absent =>
    refine .inr ⟨rfl, _, rfl, ?_⟩
    intro fact
    rw [Dict.get_erase]
    by_cases hfact : condition.fact = fact <;> simp [hfact, lastAssigned]
  | present =>
    cases hvalue : facts[condition.fact]? with
    | none => exact .inl ⟨rfl, by simp⟩
    | some v =>
      refine .inr ⟨rfl, facts, by simp, ?_⟩
      intro fact
      simp [lastAssigned]
  | notEquals =>
    cases hequals : condition.value.equals (facts[condition.fact]?.getD .null) with
    | true => exact .inl ⟨rfl, by simp⟩
    | false =>
      refine .inr ⟨rfl, facts, by simp, ?_⟩
      intro fact
      simp [lastAssigned]

theorem applyPostconditions_snoc (facts : Facts) (before : List Condition)
    (condition : Condition) :
    applyPostconditions facts (before ++ [condition]) =
      (applyPostconditions facts before).bind fun next => applyPostcondition next condition := by
  unfold applyPostconditions
  rw [List.foldlM_append]
  cases List.foldlM applyPostcondition facts before with
  | none => rfl
  | some next => simp

theorem get_applyPostconditions {next : Facts}
    (h : applyPostconditions facts conditions = some next) (fact : Str) :
    next[fact]? = valueAfter facts conditions fact := by
  induction conditions using List.reverseRecOn generalizing next fact with
  | nil =>
    cases h
    rfl
  | append_singleton before condition ih =>
    rw [applyPostconditions_snoc] at h
    obtain ⟨mid, hmid, happly⟩ := Option.bind_eq_some_iff.1 h
    rcases applyPostcondition_cases mid condition with ⟨-, hnone⟩ | ⟨-, next', hsome, hget⟩
    · rw [hnone] at happly
      cases happly
    · rw [hsome] at happly
      cases happly
      rw [hget, valueAfter_append]
      unfold valueAfter
      rw [ih hmid fact]
      rfl

/-- A check of the list fails where it stands. -/
def Refused (facts : Facts) (conditions : List Condition) : Prop :=
  ∃ before condition after, conditions = before ++ condition :: after ∧
    condition.fails (valueAfter facts before condition.fact) = true

theorem refused_snoc {before : List Condition} : Refused facts (before ++ [condition]) ↔
      Refused facts before ∨ condition.fails (valueAfter facts before condition.fact) = true := by
  constructor
  · rintro ⟨earlier, check, after, heq, hfails⟩
    rcases List.eq_nil_or_concat after with rfl | ⟨after, last, rfl⟩
    · obtain ⟨rfl, hlast⟩ := List.append_inj' heq rfl
      cases hlast
      exact .inr hfails
    · have hsplit : before ++ [condition] = (earlier ++ check :: after) ++ [last] := by
        simpa using heq
      obtain ⟨rfl, -⟩ := List.append_inj' hsplit rfl
      exact .inl ⟨earlier, check, after, rfl, hfails⟩
  · rintro (⟨earlier, check, after, rfl, hfails⟩ | hfails)
    · exact ⟨earlier, check, after ++ [condition], by simp, hfails⟩
    · exact ⟨before, condition, [], rfl, hfails⟩

theorem applyPostconditions_eq_none :
    applyPostconditions facts conditions = none ↔ Refused facts conditions := by
  induction conditions using List.reverseRecOn with
  | nil =>
    refine iff_of_false (Option.some_ne_none facts) ?_
    rintro ⟨before, condition, after, heq, -⟩
    simp at heq
  | append_singleton before condition ih =>
    rw [applyPostconditions_snoc, refused_snoc, ← ih]
    cases hmid : applyPostconditions facts before with
    | none => simp
    | some mid =>
      have hvalue := get_applyPostconditions hmid condition.fact
      rw [← hvalue]
      rcases applyPostcondition_cases mid condition with
        ⟨hfails, hnone⟩ | ⟨hpasses, next, hsome, -⟩
      · simp [hfails, hnone]
      · simp [hpasses, hsome]

/-! ## Conditions that hold behind the list -/

/-- No later assignment to its fact contradicts a condition. -/
def Kept (conditions : List Condition) : Prop :=
  ∀ before condition after, conditions = before ++ condition :: after →
    ∀ value, lastAssigned condition.fact after = some value → condition.holdsOf value = true

theorem holds_after_iff {next : Facts} (h : applyPostconditions facts conditions = some next) :
    (∀ condition ∈ conditions, conditionHolds condition next = true) ↔ Kept conditions := by
  have hnot : ¬Refused facts conditions := by
    rw [← applyPostconditions_eq_none, h]
    exact Option.some_ne_none next
  have hvalue : ∀ before condition after, conditions = before ++ condition :: after →
      conditionHolds condition next = condition.holdsOf
        ((lastAssigned condition.fact after).getD
          (condition.assigned.getD (valueAfter facts before condition.fact))) := by
    rintro before condition after rfl
    rw [conditionHolds_eq, get_applyPostconditions h, ← List.singleton_append,
      ← List.append_assoc, valueAfter_append, valueAfter_append]
    simp [lastAssigned]
  constructor
  · intro hholds before condition after heq value hlast
    have hcondition := hholds condition (by simp [heq])
    rwa [hvalue before condition after heq, hlast] at hcondition
  · intro hkept condition hmem
    obtain ⟨before, after, heq⟩ := List.append_of_mem hmem
    rw [hvalue before condition after heq]
    cases hlast : lastAssigned condition.fact after with
    | some value => exact hkept before condition after heq value hlast
    | none =>
      cases hassigned : condition.assigned with
      | some value => exact Condition.holdsOf_assigned hassigned
      | none =>
        have hpasses : condition.fails (valueAfter facts before condition.fact) = false := by
          rw [← Bool.not_eq_true]
          intro hfails
          exact hnot ⟨before, condition, after, heq, hfails⟩
        exact Condition.holdsOf_of_passes hassigned hpasses

/-! ## Conditions that hold before the list -/

/-- The facts are what the assignments make of them, and no check takes a missing
fact for `None`. -/
structure Settled (facts : Facts) (conditions : List Condition) : Prop where
  assigned : ∀ (fact : Str) (value : Option Json), lastAssigned fact conditions = some value →
    facts[fact]? = value
  named : ∀ condition ∈ conditions, condition.operator = .notEquals → condition.value = .none →
    facts[condition.fact]? ≠ none

theorem valueAfter_alike {facts : Facts} {conditions : List Condition}
    (hholds : ∀ condition ∈ conditions, conditionHolds condition facts = true) (fact : Str) :
    valueAfter facts conditions fact = facts[fact]? ∨
      ∃ (p : Primitive) (v : Json), valueAfter facts conditions fact = some p.json ∧
        facts[fact]? = some v ∧ p.equals v = true := by
  induction conditions using List.reverseRecOn with
  | nil => exact .inl rfl
  | append_singleton before condition ih =>
    have hbefore := ih fun c hc => hholds c (List.mem_append_left _ hc)
    have hcondition := hholds condition (by simp)
    rw [conditionHolds_eq] at hcondition
    rw [valueAfter_append]
    by_cases hfact : condition.fact = fact
    · subst hfact
      unfold Condition.holdsOf at hcondition
      simp only [lastAssigned, if_true, Option.none_or]
      unfold Condition.assigned
      cases hoperator : condition.operator with
      | notEquals => exact hbefore
      | present => exact hbefore
      | absent =>
        rw [hoperator] at hcondition
        exact .inl (Option.isNone_iff_eq_none.1 hcondition).symm
      | equals =>
        rw [hoperator] at hcondition
        obtain ⟨v, hv, hequals⟩ := Option.any_eq_true _ _ |>.1 hcondition
        exact .inr ⟨condition.value, v, rfl, hv, hequals⟩
    · simpa [lastAssigned, hfact] using hbefore

theorem not_refused_of_holds
    (hholds : ∀ condition ∈ conditions, conditionHolds condition facts = true)
    (hnamed : ∀ condition ∈ conditions, condition.operator = .notEquals →
      condition.value = .none → facts[condition.fact]? ≠ none) : ¬Refused facts conditions := by
  rintro ⟨before, condition, after, rfl, hfails⟩
  have hmem : condition ∈ before ++ condition :: after := by simp
  have hcondition := hholds condition hmem
  rw [conditionHolds_eq] at hcondition
  have halike := @valueAfter_alike facts before
    (fun c hc => hholds c (List.mem_append_left _ hc)) condition.fact
  unfold Condition.holdsOf at hcondition
  unfold Condition.fails at hfails
  cases hoperator : condition.operator with
  | equals => simp [hoperator] at hfails
  | absent => simp [hoperator] at hfails
  | present =>
    rw [hoperator] at hcondition hfails
    rcases halike with hsame | ⟨p, v, hafter, -, -⟩
    · rw [hsame] at hfails
      cases hfact : facts[condition.fact]? <;> simp_all
    · simp [hafter] at hfails
  | notEquals =>
    rw [hoperator] at hcondition hfails
    simp only at hcondition hfails
    rcases halike with hsame | ⟨p, v, hafter, hfact, hequals⟩
    · rw [hsame] at hfails
      cases hfact : facts[condition.fact]? with
      | none =>
        have hnone : condition.value = .none := by
          cases hvalue : condition.value <;> simp_all [Primitive.equals]
        exact hnamed condition hmem hoperator hnone hfact
      | some v => simp [hfact] at hcondition hfails; simp_all
    · rw [hafter, Option.getD_some, equals_through hequals] at hfails
      simp [hfact, hfails] at hcondition

/-- Facts in which every condition holds come back as they were exactly when they
are settled. -/
theorem unchanged_iff (hholds : ∀ condition ∈ conditions, conditionHolds condition facts = true) :
    applyPostconditions facts conditions = some facts ↔ Settled facts conditions := by
  constructor
  · intro h
    have hnot : ¬Refused facts conditions := by
      rw [← applyPostconditions_eq_none, h]
      exact Option.some_ne_none facts
    refine ⟨?_, ?_⟩
    · intro fact value hlast
      rw [get_applyPostconditions h fact, valueAfter, hlast, Option.getD_some]
    · intro condition hmem hoperator hvalue hmissing
      obtain ⟨before, after, rfl⟩ := List.append_of_mem hmem
      apply hnot
      refine ⟨before, condition, after, rfl, ?_⟩
      have halike := @valueAfter_alike facts before
        (fun c hc => hholds c (List.mem_append_left _ hc)) condition.fact
      rw [hmissing] at halike
      rcases halike with hsame | ⟨p, v, -, hfact, -⟩
      · simp [Condition.fails, hoperator, hvalue, hsame, Primitive.equals]
      · cases hfact
  · intro hsettled
    cases happly : applyPostconditions facts conditions with
    | none =>
      exact absurd (applyPostconditions_eq_none.1 happly)
        (not_refused_of_holds hholds hsettled.named)
    | some next =>
      congr 1
      apply Dict.ext
      intro fact
      rw [get_applyPostconditions happly fact, valueAfter]
      cases hlast : lastAssigned fact conditions with
      | none => rfl
      | some value => exact (hsettled.assigned fact value hlast).symm

/-! ## Establishing postconditions -/

/-- Conditions that are applied hold, and conditions that hold are not applied again. -/
def Establishes (facts : Facts) (conditions : List Condition) : Prop :=
  (∀ next, applyPostconditions facts conditions = some next →
      ∀ condition ∈ conditions, conditionHolds condition next = true) ∧
    ((∀ condition ∈ conditions, conditionHolds condition facts = true) →
      applyPostconditions facts conditions = some facts)

/-- Postconditions are established exactly when a check stops the list or nothing
undoes a condition, and facts in which they all hold are settled. -/
theorem establishes_iff (facts : Facts) (conditions : List Condition) :
    Establishes facts conditions ↔
      (Refused facts conditions ∨ Kept conditions) ∧
        ((∀ condition ∈ conditions, conditionHolds condition facts = true) →
          Settled facts conditions) := by
  have hafter : (∀ next, applyPostconditions facts conditions = some next →
      ∀ condition ∈ conditions, conditionHolds condition next = true) ↔
        Refused facts conditions ∨ Kept conditions := by
    rw [← applyPostconditions_eq_none]
    cases happly : applyPostconditions facts conditions with
    | none => simp
    | some next =>
      rw [← holds_after_iff happly]
      simp
  unfold Establishes
  rw [hafter]
  apply and_congr_right'
  exact forall_congr' fun hholds => unchanged_iff hholds

namespace Postconditions

def conditionDocument (fact operator : String) (value : Json) : Json :=
  .fields [("fact", .str (str fact)), ("operator", .str (str operator)), ("value", value)]

/-- A fact is to be absent and true. -/
def contradictory : List Json :=
  [conditionDocument "a" "absent" .null, conditionDocument "a" "equals" (.bool true)]

/-- A fact is not to be `null`. -/
def named : List Json := [conditionDocument "a" "not_equals" .null]

def absentA : Condition := ⟨str "a", .absent, .none⟩

def trueA : Condition := ⟨str "a", .equals, .bool true⟩

def namedA : Condition := ⟨str "a", .notEquals, .none⟩

/-- Two lists of the schema that the empty facts do not establish: one is applied
and does not hold, the other holds and is not applied. -/
theorem not_established :
    (Schemas.setOf Schemas.condition).accepts (.arr contradictory) = true ∧
      contradictory.mapM readCondition = .ok [absentA, trueA] ∧
      ¬Establishes ∅ [absentA, trueA] ∧
      (Schemas.setOf Schemas.condition).accepts (.arr named) = true ∧
      named.mapM readCondition = .ok [namedA] ∧ ¬Establishes ∅ [namedA] := by
  refine ⟨by decide, rfl, ?_, by decide, rfl, ?_⟩
  · intro h
    have habsent := h.1 _ rfl absentA (by simp)
    revert habsent
    decide
  · intro h
    have happlied := h.2 (by decide)
    exact absurd happlied (by decide)

end Postconditions

end IntegrityGuardian.Synapse
