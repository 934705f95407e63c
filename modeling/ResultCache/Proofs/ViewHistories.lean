import Mathlib.Data.List.DropRight
import Mathlib.Data.List.Induction
import ResultCache.Proofs.KeyExtensions
import ResultCache.Proofs.Separators
import ResultCache.Proofs.ViewSteps
import ResultCache.Store.Shelf

/-! # What a view stages -/

namespace ResultCache.View

variable {σ ω : Type}

namespace Step

def staged? : Step σ → Option Key
  | .put key _ => some key
  | .remove key => some key
  | _ => none

def text? : Step σ → Option String
  | .put _ text => some text
  | _ => none

def isRemoval : Step σ → Bool
  | .remove _ => true
  | _ => false

def ends : Step σ → Bool
  | .commit _ => true
  | .rollback => true
  | _ => false

/-- Whether no key is staged after a step. -/
def resets : Step σ → Bool
  | .clear => true
  | step => step.ends

/-- Whether a step stages something for the key with these components. -/
def concerns (components : List Value) (step : Step σ) : Bool :=
  step.staged?.any fun key => key.components = components

end Step

def sinceEnd (steps : List (Step σ)) : List (Step σ) := steps.rtakeWhile fun step => !step.ends

/-- The steps since the last clear, commit or rollback. -/
def sinceReset (steps : List (Step σ)) : List (Step σ) := steps.rtakeWhile fun step => !step.resets

/-- The latest of these steps about the key with these components. -/
def latest? (components : List Value) (steps : List (Step σ)) : Option (Step σ) :=
  (sinceReset steps).findRev? (Step.concerns components)

private theorem sinceEnd_concat (steps : List (Step σ)) (step : Step σ) :
    sinceEnd (steps ++ [step]) = if step.ends then [] else sinceEnd steps ++ [step] := by
  rw [sinceEnd, List.rtakeWhile_concat, sinceEnd]
  cases step.ends <;> rfl

theorem latest?_concat (components : List Value) (steps : List (Step σ)) (step : Step σ) :
    latest? components (steps ++ [step]) =
      if step.resets then none
      else if step.concerns components then some step else latest? components steps := by
  rw [latest?, sinceReset, List.rtakeWhile_concat]
  cases step.resets with
  | true => rfl
  | false => exact findRev?_concat

/-- A view stages what the steps say that were taken with it. -/
structure StagesLatest (steps : List (Step σ)) (view : View σ) : Prop where
  cleared : view.cleared = true ↔ Step.clear ∈ sinceEnd steps
  written : ∀ key : Key, key.Reachable →
    view.writes.find? key = (latest? key.components steps).bind Step.text?
  removed : ∀ key : Key, key.Reachable →
    view.removals.contains key = (latest? key.components steps).any Step.isRemoval
  reachable : ∀ key, view.writes.contains key = true ∨ view.removals.contains key = true →
    key.Reachable

variable {steps : List (Step σ)} {view : View σ} {step : Step σ} {key other : Key}

private theorem latest?_concat_of_staged (hstep : step.staged? = some key) (hk : key.Reachable)
    (ho : other.Reachable) : latest? other.components (steps ++ [step]) =
      if other = key then some step else latest? other.components steps := by
  have hresets : step.resets = false := by
    cases step <;> first | rfl | cases hstep
  have hconcerns : step.concerns other.components = decide (other = key) := by
    rw [Step.concerns, hstep, Option.any_some, decide_eq_decide, hk.components_eq_iff ho, eq_comm]
  rw [latest?_concat, hresets, hconcerns]
  simp

private theorem mem_sinceEnd_concat_of_staged (hstep : step.staged? = some key) :
    Step.clear ∈ sinceEnd (steps ++ [step]) ↔ Step.clear ∈ sinceEnd steps := by
  cases step <;> simp_all [sinceEnd_concat, Step.ends, Step.staged?]

namespace StagesLatest

private theorem reachable_of_empty {cleared : Bool} {cache : NamedCache σ} (key : Key)
    (h : (⟨cache, cleared, .empty, .empty⟩ : View σ).writes.contains key = true ∨
      (⟨cache, cleared, .empty, .empty⟩ : View σ).removals.contains key = true) :
    key.Reachable := by
  simp at h

private theorem fresh_nil (cache : NamedCache σ) : StagesLatest [] (fresh cache) where
  cleared := by simp [fresh, sinceEnd]
  written _ _ := rfl
  removed _ _ := rfl
  reachable := reachable_of_empty

private theorem fresh_concat (hends : step.ends = true) (cache : NamedCache σ) :
    StagesLatest (steps ++ [step]) (fresh cache) := by
  have hresets : step.resets = true := by
    cases step <;> first | rfl | exact hends
  have hlatest (components : List Value) : latest? components (steps ++ [step]) = none := by
    rw [latest?_concat, if_pos hresets]
  refine ⟨by simp [sinceEnd_concat, hends, fresh], ?_, ?_, reachable_of_empty⟩
  · intro key _
    rw [hlatest]
    rfl
  · intro key _
    rw [hlatest]
    rfl

private theorem get (h : StagesLatest steps view) (key : Key) : StagesLatest (steps ++ [.get key])
    view where
  cleared := by simp [sinceEnd_concat, Step.ends, h.cleared]
  written other ho := by
    rw [h.written other ho, latest?_concat]
    rfl
  removed other ho := by
    rw [h.removed other ho, latest?_concat]
    rfl
  reachable := h.reachable

private theorem clear (steps : List (Step σ)) (view : View σ) :
    StagesLatest (steps ++ [.clear]) view.clear where
  cleared := by simp [sinceEnd_concat, Step.ends, View.clear]
  written _ _ := by
    rw [latest?_concat]
    rfl
  removed _ _ := by
    rw [latest?_concat]
    rfl
  reachable := reachable_of_empty

private theorem put (h : StagesLatest steps view) (hk : key.Reachable) (text : String) :
    StagesLatest (steps ++ [.put key text]) (view.put key text) where
  cleared := h.cleared.trans (mem_sinceEnd_concat_of_staged rfl).symm
  written other ho := by
    rw [View.put, Table.find?_set, latest?_concat_of_staged rfl hk ho, h.written other ho]
    by_cases hkey : other = key <;> simp [hkey, Step.text?]
  removed other ho := by
    rw [View.put, Table.contains_erase, latest?_concat_of_staged rfl hk ho, h.removed other ho]
    by_cases hkey : other = key <;> simp [hkey, Step.isRemoval]
  reachable other ho := by
    by_cases hkey : other = key
    · exact hkey ▸ hk
    · exact h.reachable other (by simpa [View.put, hkey] using ho)

private theorem remove (h : StagesLatest steps view) (hk : key.Reachable) :
    StagesLatest (steps ++ [.remove key]) (view.remove key) where
  cleared := h.cleared.trans (mem_sinceEnd_concat_of_staged rfl).symm
  written other ho := by
    rw [View.remove, Table.find?_erase, latest?_concat_of_staged rfl hk ho, h.written other ho]
    by_cases hkey : other = key <;> simp [hkey, Step.text?]
  removed other ho := by
    rw [View.remove, Table.contains_set, latest?_concat_of_staged rfl hk ho, h.removed other ho]
    by_cases hkey : other = key <;> simp [hkey, Step.isRemoval]
  reachable other ho := by
    by_cases hkey : other = key
    · exact hkey ▸ hk
    · exact h.reachable other (by simpa [View.remove, hkey] using ho)

/-- A step leaves staged what the steps up to it say, itself among them. -/
theorem take {stores : Stores σ ω} {state : View σ × ω} (h : StagesLatest steps state.1)
    (hstep : ∀ key ∈ step.staged?, key.Reachable) :
    StagesLatest (steps ++ [step]) ((View.take stores step).runOn state).2.1 := by
  cases step with
  | get key => exact h.get key
  | put key text => exact h.put (hstep key rfl) text
  | remove key => exact h.remove (hstep key rfl)
  | clear => exact clear steps state.1
  | commit order =>
    rw [View.take, Action.runOn_map]
    exact fresh_concat rfl state.1.cache
  | rollback => exact fresh_concat rfl state.1.cache

theorem takeAll (stores : Stores σ ω) (cache : NamedCache σ) (world : ω)
    (hsteps : ∀ step ∈ steps, ∀ key ∈ step.staged?, key.Reachable) :
    StagesLatest steps (View.takeAll stores steps (fresh cache, world)).1 := by
  induction steps using List.reverseRecOn with
  | nil => exact fresh_nil cache
  | append_singleton steps step ih =>
    rw [View.takeAll, List.foldl_append]
    apply take (ih fun earlier he => hsteps earlier (List.mem_append_left [step] he))
    exact hsteps step (by simp)

theorem components_injOn (h : StagesLatest steps view) {other : Key}
    (hkey : key ∈ view.writes.keys ++ view.removals.keys)
    (hother : other ∈ view.writes.keys ++ view.removals.keys)
    (hcomponents : key.components = other.components) : key = other := by
  rw [List.mem_append, Table.mem_keys_iff, Table.mem_keys_iff] at hkey hother
  exact ((h.reachable key hkey).components_eq_iff (h.reachable other hother)).mp hcomponents

end StagesLatest

/-- After any steps from a fresh view, whatever the stores do and however commits end, the view is
to be cleared exactly if it was cleared since the last commit or rollback. For a key, the latest
step about it counts, of those since the last clear, commit or rollback. Keys are those of their
components, and none is staged twice. -/
theorem staged_by_latest (stores : Stores σ ω) (cache : NamedCache σ) (world : ω)
    (steps : List (Step σ)) (hsteps : ∀ step ∈ steps, ∀ key ∈ step.staged?, key.Reachable) :
    let view := (takeAll stores steps (fresh cache, world)).1
    StagesLatest steps view ∧
      ((view.writes.keys ++ view.removals.keys).map Key.components).Nodup := by
  intro view
  have hstaged : StagesLatest steps view := StagesLatest.takeAll stores cache world hsteps
  refine ⟨hstaged, ?_⟩
  have happart : view.Apart := (apart_fresh cache).takeAll steps
  apply List.Nodup.map_on
  · intro key hkey other hother
    exact hstaged.components_injOn hkey hother
  · apply List.nodup_append.mpr
    refine ⟨view.writes.distinct, view.removals.distinct, ?_⟩
    intro key hkey other hother heq
    rw [Table.mem_keys_iff] at hkey hother
    rw [← heq] at hother
    rw [Table.contains, happart key hother] at hkey
    cases hkey

/-- A put before a commit that fails, a clear, and some steps about two keys, one of which is built
in two ways. -/
theorem staged_by_latest_of_two_keys :
    let down : MapStore := { MapStore.new .empty with failure := some "down" }
    let ada : Key := .ofComponents [.text "users", .text "ada"]
    let bob : Key := .ofComponents [.text "users", .text "bob"]
    let again : Key := (Key.ofComponents [.text "users"]).update (.text "bob")
    let steps : List (Step Nat) :=
      [.put ada "1", .commit .staged, .put bob "2", .clear, .put again "3", .put ada "4",
        .put bob "5", .get bob, .remove ada]
    let view := (takeAll Shelf.stores steps (fresh ⟨"users", 0⟩, [ShelfStore.map down])).1
    view.cleared = true ∧ view.writes.find? bob = some "5" ∧ view.removals.contains bob = false ∧
      view.writes.find? ada = none ∧ view.removals.contains ada = true ∧
      ((view.writes.keys ++ view.removals.keys).map Key.components).Nodup := by
  intro down ada bob again steps view
  have hada : ada.Reachable := Key.reachable_ofComponents _
  have hbob : bob.Reachable := Key.reachable_ofComponents _
  have hagain : again.Reachable := ⟨[.several [.text "users"], .one (.text "bob")], by
    simp only [again, Key.extended, List.foldl_cons, List.foldl_nil, Key.extend, Key.ofComponents]⟩
  have hsteps : ∀ step ∈ steps, ∀ key ∈ step.staged?, key.Reachable := by
    simp [steps, Step.staged?, hada, hbob, hagain]
  obtain ⟨hstaged, hnodup⟩ :=
    staged_by_latest Shelf.stores ⟨"users", 0⟩ [ShelfStore.map down] steps hsteps
  refine ⟨?_, ?_, ?_, ?_, ?_, hnodup⟩
  · exact hstaged.cleared.mpr (by simp [steps, sinceEnd, List.rtakeWhile, Step.ends])
  · rw [hstaged.written bob hbob]
    decide
  · rw [hstaged.removed bob hbob]
    decide
  · rw [hstaged.written ada hada]
    decide
  · rw [hstaged.removed ada hada]
    decide

end ResultCache.View
