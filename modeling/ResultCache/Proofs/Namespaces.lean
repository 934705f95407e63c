import Mathlib.Data.List.Induction
import ResultCache.Registry

/-! # Which namespaces are accepted -/

namespace ResultCache.Registry

variable {before names : List String} {name : String} {fault : ValidationFault}

def Filled (name : String) : Prop := ∃ c ∈ name.toList, Text.isBlank c = false

def Unpatterned (name : String) : Prop := ∀ c ∈ name.toList, c ∉ ['*', '?', '[', ']', '\\']

/-- Namespaces that can be kept apart, each of which can be part of a key pattern. -/
structure Usable (names : List String) : Prop where
  filled : ∀ name ∈ names, Filled name
  unpatterned : ∀ name ∈ names, Unpatterned name
  distinct : names.Pairwise (· ≠ ·)

/-- The rule that a namespace breaks after others: a rule counts only if those above it are kept. -/
inductive Breaks (before : List String) (name : String) : ValidationFault → Prop where
  | blank (empty : ¬ Filled name) : Breaks before name .blankNamespace
  | glob (filled : Filled name) (patterned : ¬ Unpatterned name) :
      Breaks before name (.globNamespace name)
  | duplicate (filled : Filled name) (unpatterned : Unpatterned name) (repeated : name ∈ before) :
      Breaks before name (.duplicateNamespace name)

private theorem blank_iff : Text.blank name = true ↔ ¬ Filled name := by
  simp [Text.blank, Filled]

theorem isGlobChar_iff {c : Char} : isGlobChar c = true ↔ c ∈ ['*', '?', '[', ']', '\\'] := by
  simp [isGlobChar, or_assoc]

private theorem any_isGlobChar_iff : name.toList.any isGlobChar = true ↔ ¬ Unpatterned name := by
  simp only [List.any_eq_true, isGlobChar_iff, Unpatterned, not_forall, not_not, exists_prop]

private theorem usable_concat_iff :
    Usable (before ++ [name]) ↔ Usable before ∧ Filled name ∧ Unpatterned name ∧ name ∉ before := by
  constructor
  · intro h
    have hdistinct := List.pairwise_append.mp h.distinct
    have hmem : name ∈ before ++ [name] := by simp
    refine ⟨⟨?_, ?_, hdistinct.1⟩, h.filled name hmem, h.unpatterned name hmem, ?_⟩
    · intro other ho
      exact h.filled other (List.mem_append_left _ ho)
    · intro other ho
      exact h.unpatterned other (List.mem_append_left _ ho)
    · intro hrepeated
      exact hdistinct.2.2 name hrepeated name (by simp) rfl
  · intro ⟨h, hfilled, hunpatterned, hnew⟩
    refine ⟨?_, ?_, ?_⟩
    · simpa [or_imp, forall_and] using ⟨h.filled, hfilled⟩
    · simpa [or_imp, forall_and] using ⟨h.unpatterned, hunpatterned⟩
    · apply List.pairwise_append.mpr
      refine ⟨h.distinct, List.pairwise_singleton _ _, ?_⟩
      intro other ho last hl heq
      have hlast : last = name := by simpa using hl
      exact hnew (hlast ▸ heq ▸ ho)

private theorem usable_nil : Usable [] := ⟨by simp, by simp, List.Pairwise.nil⟩

private theorem Breaks.not_usable (h : Breaks before name fault) : ¬ Usable (before ++ [name]) := by
  intro husable
  obtain ⟨-, hfilled, hunpatterned, hnew⟩ := usable_concat_iff.mp husable
  cases h with
  | blank empty => exact empty hfilled
  | glob _ patterned => exact patterned hunpatterned
  | duplicate _ _ repeated => exact hnew repeated

private theorem usable_or_breaks (h : Usable before) (name : String) :
    Usable (before ++ [name]) ∨ ∃ fault, Breaks before name fault := by
  by_cases hfilled : Filled name
  · by_cases hunpatterned : Unpatterned name
    · by_cases hrepeated : name ∈ before
      · exact .inr ⟨_, .duplicate hfilled hunpatterned hrepeated⟩
      · exact .inl (usable_concat_iff.mpr ⟨h, hfilled, hunpatterned, hrepeated⟩)
    · exact .inr ⟨_, .glob hfilled hunpatterned⟩
  · exact .inr ⟨_, .blank hfilled⟩

/-- Every list is acceptable up to its end or up to a namespace that breaks a rule. -/
theorem usable_or_exists_breaks (names : List String) :
    Usable names ∨ ∃ before name after fault, names = before ++ name :: after ∧
      Usable before ∧ Breaks before name fault := by
  induction names using List.reverseRecOn with
  | nil => exact .inl usable_nil
  | append_singleton names last ih =>
    rcases ih with husable | ⟨before, name, after, fault, rfl, husable, hbreaks⟩
    · rcases usable_or_breaks husable last with hlast | ⟨fault, hbreaks⟩
      · exact .inl hlast
      · exact .inr ⟨names, last, [], fault, rfl, husable, hbreaks⟩
    · exact .inr ⟨before, name, after ++ [last], fault, by simp, husable, hbreaks⟩

private theorem checkNames_of_usable (h : Usable (before ++ [name])) (rest : List String) :
    checkNames before.reverse (name :: rest) = checkNames (before ++ [name]).reverse rest := by
  obtain ⟨-, hfilled, hunpatterned, hnew⟩ := usable_concat_iff.mp h
  have hblank : ¬ Text.blank name = true := fun hb => blank_iff.mp hb hfilled
  have hglob : ¬ name.toList.any isGlobChar = true :=
    fun hg => any_isGlobChar_iff.mp hg hunpatterned
  rw [checkNames, if_neg hblank, if_neg hglob, if_neg (by simpa using hnew)]
  simp

private theorem checkNames_of_breaks (h : Breaks before name fault) (rest : List String) :
    checkNames before.reverse (name :: rest) = .error fault := by
  rw [checkNames]
  cases h with
  | blank empty => rw [if_pos (blank_iff.mpr empty)]
  | glob filled patterned =>
    rw [if_neg (fun hb => blank_iff.mp hb filled), if_pos (any_isGlobChar_iff.mpr patterned)]
  | duplicate filled unpatterned repeated =>
    rw [if_neg (fun hb => blank_iff.mp hb filled),
      if_neg (fun hg => any_isGlobChar_iff.mp hg unpatterned), if_pos (by simpa using repeated)]

private theorem checkNames_append (h : Usable before) (rest : List String) :
    checkNames [] (before ++ rest) = checkNames before.reverse rest := by
  induction before using List.reverseRecOn generalizing rest with
  | nil => rfl
  | append_singleton before name ih =>
    have hbefore := (usable_concat_iff.mp h).1
    rw [List.append_assoc, ih hbefore, List.singleton_append, checkNames_of_usable h]

theorem validate_of_usable (h : Usable names) : validate names = .ok () := by
  have hcheck := checkNames_append h []
  rw [List.append_nil] at hcheck
  rw [validate, hcheck]
  rfl

theorem validate_of_breaks (h : Usable before) (hbreaks : Breaks before name fault)
    (after : List String) : validate (before ++ name :: after) = .error (.validation fault) := by
  rw [validate, checkNames_append h, checkNames_of_breaks hbreaks]
  rfl

theorem usable_of_validate (h : validate names = .ok ()) : Usable names := by
  rcases usable_or_exists_breaks names with husable |
    ⟨before, name, after, fault, rfl, husable, hbreaks⟩
  · exact husable
  · rw [validate_of_breaks husable hbreaks] at h
    cases h

/-- Namespaces are accepted exactly if they are usable. Otherwise the error is about the first one
at which the list up to it is not usable, by the first rule that it breaks there, and building a
registry ends with this error before any store has been put up. -/
theorem validate_reports_first (names : List String) :
    (validate names = .ok () ↔ Usable names) ∧
    (∀ e, validate names = .error e ↔ ∃ before name after fault,
      names = before ++ name :: after ∧ Usable before ∧ ¬ Usable (before ++ [name]) ∧
        Breaks before name fault ∧ e = .validation fault) ∧
    ∀ e, validate names = .error e →
      ∀ {ν : Type} (network : Redis.Network ν) (settings : Settings) (host : Host ν),
        settings.namespaces = names →
          ofSettings network settings host = (.error (.error e), host) := by
  refine ⟨⟨usable_of_validate, validate_of_usable⟩, ?_, ?_⟩
  · intro e
    constructor
    · intro herror
      rcases usable_or_exists_breaks names with husable |
        ⟨before, name, after, fault, rfl, husable, hbreaks⟩
      · rw [validate_of_usable husable] at herror
        cases herror
      · rw [validate_of_breaks husable hbreaks] at herror
        cases herror
        exact ⟨before, name, after, fault, rfl, husable, hbreaks.not_usable, hbreaks, rfl⟩
    · intro ⟨before, name, after, fault, hnames, husable, _, hbreaks, he⟩
      rw [hnames, he, validate_of_breaks husable hbreaks]
  · intro e herror ν network settings host hnames
    rw [ofSettings, hnames, herror]

/-- The third namespace repeats the first one. Those after it break other rules, and there is no
such backend, but the repetition is what is reported. -/
theorem validate_reports_first_of_repetition :
    let settings : Settings :=
      { cache := { backend := "disk" }, namespaces := ["users", "orders", "users", "a*", " "] }
    let fault : Error := .validation (.duplicateNamespace "users")
    validate settings.namespaces = .error fault ∧
      fault.message = "Validation error: Duplicate cache namespace: users" ∧
      ofSettings Redis.Network.silent settings ⟨[], ()⟩ = (.error (.error fault), ⟨[], ()⟩) := by
  intro settings fault
  obtain ⟨-, hreports, hbuild⟩ := validate_reports_first settings.namespaces
  have husable : Usable ["users", "orders"] :=
    ⟨by simp [Filled, Text.isBlank], by simp [Unpatterned], by simp⟩
  have hbreaks : Breaks ["users", "orders"] "users" (.duplicateNamespace "users") :=
    .duplicate (husable.filled _ (by simp)) (husable.unpatterned _ (by simp)) (by simp)
  have herror : validate settings.namespaces = .error fault := by
    apply (hreports fault).mpr
    exact ⟨["users", "orders"], "users", ["a*", " "], _, rfl, husable, hbreaks.not_usable, hbreaks,
      rfl⟩
  exact ⟨herror, rfl, hbuild fault herror Redis.Network.silent settings ⟨[], ()⟩ rfl⟩

end ResultCache.Registry
