import JobQ.Model.BackendSpec

/-!
# Which addresses are accepted

The text is split at its last slash before the scheme is looked at, and the parts may be empty.
-/

namespace JobQ.BackendSpec

variable {value rest place name : List Char}

/-- The documented form, with parts that are not empty. -/
def Spec.Form : Spec → List Char → Prop
  | .serviceBus name ns, value => ns ≠ [] ∧ name ≠ [] ∧ value = scheme ++ ns ++ '/' :: name
  | .storageQueue name account, value =>
    account ≠ [] ∧ name ≠ [] ∧ value = account ++ '/' :: name ∧ ¬scheme <+: value

structure AcceptsForm (value : List Char) : Prop where
  accepts : ∀ spec, convert value = .ok (some spec) ↔ spec.Form value
  otherwise : (∀ spec : Spec, ¬spec.Form value) → ∃ error, convert value = .error error
  back : ∀ spec, convert value = .ok (some spec) → spec.str ++ '/' :: spec.name = value

/-- The only slash with text on both sides is the last one. -/
def OneSplit (rest : List Char) : Prop :=
  ∃ place name, rest = place ++ '/' :: name ∧ place ≠ [] ∧ name ≠ [] ∧ '/' ∉ name ∧ '/' ∉ place.tail

def Documented (value : List Char) : Prop :=
  if scheme <+: value then OneSplit (value.drop scheme.length) else '/' ∈ value → OneSplit value

/-! ## One split -/

theorem split_unique {other others : List Char} (last : '/' ∉ name) (first : '/' ∉ place.tail)
    (nonempty : other ≠ []) (same : place ++ '/' :: name = other ++ '/' :: others) :
    other = place ∧ others = name := by
  rcases List.append_eq_append_iff.mp same with ⟨between, rfl, after⟩ | ⟨between, rfl, after⟩
  · cases between with
    | nil => exact ⟨List.append_nil place, (List.cons.inj after).2.symm⟩
    | cons c between =>
        obtain ⟨-, rfl⟩ := List.cons.inj after
        exact absurd (by simp) last
  · cases between with
    | nil => exact ⟨(List.append_nil other).symm, (List.cons.inj after).2⟩
    | cons c between =>
        obtain ⟨rfl, -⟩ := List.cons.inj after
        obtain ⟨d, other, rfl⟩ := List.exists_cons_of_ne_nil nonempty
        exact absurd (by simp) first

theorem oneSplit_iff (halves : Text.rsplit '/' rest = some (place, name)) :
    (∀ other others, (place = other ∧ name = others) ↔
      other ≠ [] ∧ others ≠ [] ∧ rest = other ++ '/' :: others) ↔ OneSplit rest := by
  obtain ⟨rfl, last⟩ := Text.rsplit_eq_some.mp halves
  constructor
  · intro only
    obtain ⟨left, right, -⟩ := (only place name).mp ⟨rfl, rfl⟩
    refine ⟨place, name, rfl, left, right, last, fun earlier => ?_⟩
    obtain ⟨c, tail, rfl⟩ := List.exists_cons_of_ne_nil left
    obtain ⟨before, after, rfl⟩ := List.append_of_mem earlier
    -- the earlier slash has text on both sides as well
    have short := ((only (c :: before) (after ++ '/' :: name)).mpr (by simp)).1
    simp at short
  · rintro ⟨place', name', same, left, right, last', first⟩ other others
    rw [same, Text.rsplit_append last'] at halves
    cases halves
    constructor
    · rintro ⟨rfl, rfl⟩
      exact ⟨left, right, rfl⟩
    · rintro ⟨nonempty, -, equal⟩
      obtain ⟨rfl, rfl⟩ := split_unique last first nonempty equal
      exact ⟨rfl, rfl⟩

theorem OneSplit.slash (split : OneSplit rest) : '/' ∈ rest := by
  obtain ⟨place, name, rfl, -⟩ := split
  simp

/-! ## The parameter -/

theorem acceptsForm_of_error {error : UsageError} (none : '/' ∉ value)
    (raised : convert value = .error error) : AcceptsForm value := by
  refine ⟨fun spec => ?_, fun _ => ⟨error, raised⟩, fun spec accepted => ?_⟩
  · rw [raised]
    refine iff_of_false (by rintro ⟨⟩) fun form => ?_
    cases spec with
    | serviceBus name ns => exact none (by simp [form.2.2])
    | storageQueue name account => exact none (by simp [form.2.2.1])
  · rw [raised] at accepted
    cases accepted

theorem acceptsForm_iff {found : Spec} (accepted : convert value = .ok (some found))
    (back : found.str ++ '/' :: found.name = value) :
    AcceptsForm value ↔ ∀ spec : Spec, found = spec ↔ spec.Form value := by
  have accepts (spec : Spec) : convert value = .ok (some spec) ↔ found = spec := by
    rw [accepted, Except.ok.injEq, Option.some.injEq]
  constructor
  · exact fun form spec => (accepts spec).symm.trans (form.accepts spec)
  · intro only
    refine ⟨fun spec => (accepts spec).trans (only spec), fun unformed => ?_, fun spec same => ?_⟩
    · exact absurd ((only found).mp rfl) (unformed found)
    · rw [← (accepts spec).mp same]
      exact back

theorem convert_scheme (halves : Text.rsplit '/' rest = some (place, name))
    (real : scheme ++ rest ≠ "__none__".toList) :
    convert (scheme ++ rest) = .ok (some (.serviceBus name place)) := by
  obtain ⟨rfl, last⟩ := Text.rsplit_eq_some.mp halves
  rw [convert, if_neg real, ← List.append_assoc, Text.rsplit_append last]
  dsimp only
  rw [if_pos (List.prefix_append scheme place), List.drop_left]

/-- Without another slash, the text is split inside the scheme. -/
theorem convert_bare (none : '/' ∉ rest) (real : scheme ++ rest ≠ "__none__".toList) :
    convert (scheme ++ rest) = .ok (some (.storageQueue rest "sb:/".toList)) := by
  have inside : scheme ++ rest = "sb:/".toList ++ '/' :: rest := rfl
  rw [convert, if_neg real, inside, Text.rsplit_append none]
  rfl

theorem convert_account (halves : Text.rsplit '/' value = some (place, name))
    (other : ¬scheme <+: value) (real : value ≠ "__none__".toList) :
    convert value = .ok (some (.storageQueue name place)) := by
  obtain ⟨rfl, last⟩ := Text.rsplit_eq_some.mp halves
  have plain : ¬scheme <+: place := fun starts => other (starts.trans (List.prefix_append place _))
  rw [convert, if_neg real, Text.rsplit_append last]
  dsimp only
  rw [if_neg plain]

theorem serviceBus_form_iff : (∀ spec : Spec, .serviceBus name place = spec ↔ spec.Form (scheme ++ rest)) ↔
    ∀ other others, (place = other ∧ name = others) ↔
      other ≠ [] ∧ others ≠ [] ∧ rest = other ++ '/' :: others := by
  constructor
  · intro only other others
    have known := only (.serviceBus others other)
    simp only [Spec.serviceBus.injEq, Spec.Form, List.append_assoc, List.append_cancel_left_eq] at known
    rw [and_comm]
    exact known
  · intro only spec
    cases spec with
    | serviceBus others other =>
        simp only [Spec.serviceBus.injEq, Spec.Form, List.append_assoc, List.append_cancel_left_eq]
        rw [and_comm]
        exact only other others
    | storageQueue others other => simp [Spec.Form]

theorem storageQueue_form_iff (plain : ¬scheme <+: value) :
    (∀ spec : Spec, .storageQueue name place = spec ↔ spec.Form value) ↔
      ∀ other others, (place = other ∧ name = others) ↔
        other ≠ [] ∧ others ≠ [] ∧ value = other ++ '/' :: others := by
  constructor
  · intro only other others
    have known := only (.storageQueue others other)
    simp only [Spec.storageQueue.injEq, Spec.Form, plain, not_false_eq_true, and_true] at known
    rw [and_comm]
    exact known
  · intro only spec
    cases spec with
    | serviceBus others other =>
        refine iff_of_false (by rintro ⟨⟩) fun form => plain ?_
        rw [form.2.2, List.append_assoc]
        exact List.prefix_append scheme _
    | storageQueue others other =>
        simp only [Spec.storageQueue.injEq, Spec.Form, plain, not_false_eq_true, and_true]
        rw [and_comm]
        exact only other others

/-- The documented form is what is accepted, except where the text has another slash, a part is empty,
or the scheme is followed by no slash. -/
theorem accepts_form_iff (value : List Char) (real : value ≠ "__none__".toList) :
    AcceptsForm value ↔ Documented value := by
  unfold Documented
  split
  · rename_i starts
    obtain ⟨rest, rfl⟩ := starts
    rw [List.drop_left]
    cases halves : Text.rsplit '/' rest with
    | none =>
        have none := Text.rsplit_eq_none.mp halves
        rw [acceptsForm_iff (convert_bare none real) rfl]
        refine iff_of_false (fun only => ?_) fun split => none split.slash
        exact ((only _).mp rfl).2.2.2 (List.prefix_append scheme rest)
    | some parts =>
        obtain ⟨place, name⟩ := parts
        have back := (Text.rsplit_eq_some.mp halves).1
        rw [acceptsForm_iff (convert_scheme halves real) (by rw [back, Spec.str, List.append_assoc]; rfl),
          serviceBus_form_iff, oneSplit_iff halves]
  · rename_i plain
    cases halves : Text.rsplit '/' value with
    | none =>
        have none := Text.rsplit_eq_none.mp halves
        have raised : convert value = .error ⟨"<storage-account>/<queue-name>", value⟩ := by
          rw [convert, if_neg real, halves]
        exact iff_of_true (acceptsForm_of_error none raised) fun slash => absurd slash none
    | some parts =>
        obtain ⟨place, name⟩ := parts
        have back := (Text.rsplit_eq_some.mp halves).1
        have slash : '/' ∈ value := by simp [back]
        rw [acceptsForm_iff (convert_account halves plain real) back.symm,
          storageQueue_form_iff plain, oneSplit_iff halves]
        exact ⟨fun split _ => split, fun split => split slash⟩

theorem accepts_form_hello : AcceptsForm "sb://hello/queue".toList :=
  (accepts_form_iff _ (by decide)).mpr (by
    rw [Documented, if_pos (by decide)]
    exact ⟨"hello".toList, "queue".toList, by decide, by decide, by decide, by decide, by decide⟩)

/-- An address without a queue is taken for a storage account. -/
theorem scheme_accepted : ¬∀ value, value ≠ "__none__".toList → AcceptsForm value := by
  intro claim
  have accepts := (claim "sb://queue".toList (by decide)).accepts
    (.storageQueue "queue".toList "sb:/".toList)
  exact (accepts.mp (by decide)).2.2.2 (by decide)

/-! ## The exported environment -/

variable {azure : Azure} {address : Address}

/-- Both ways open a queue, and it is the same one. -/
def OpensSame (azure : Azure) (credential : Option Credential) (spec : Spec) : Prop :=
  ∃ address, fromEnvironment azure (exported spec) = .ok address ∧
    queueConfigGet azure credential spec = .ok address

theorem fromStorageQueue_without (name account : List Char) :
    fromStorageQueue azure name account none ≠ .ok address := by
  unfold fromStorageQueue
  split <;> rintro ⟨⟩

theorem fromEnvironment_fails (environ : Environment) :
    fromEnvironment azure environ ≠ .ok address := by
  unfold fromEnvironment
  split
  · rintro ⟨⟩
  · rintro ⟨⟩
  · split
    · rintro ⟨⟩
    · exact fromStorageQueue_without _ _

theorem never_opens_same (azure : Azure) (credential : Option Credential) (spec : Spec) :
    ¬OpensSame azure credential spec := by
  rintro ⟨address, opened, -⟩
  exact fromEnvironment_fails (exported spec) opened

def reachable : Azure := ⟨some .token, fun _ _ => .ok ()⟩

theorem environment_fails : ¬∀ azure credential spec,
    (∃ address, queueConfigGet azure credential spec = .ok address) →
      OpensSame azure credential spec := by
  intro claim
  obtain ⟨address, opened, -⟩ := claim reachable none (.serviceBus "queue".toList "hello".toList)
    ⟨.serviceBus ("hello".toList ++ hostSuffix) "queue".toList, rfl⟩
  cases opened

end JobQ.BackendSpec
