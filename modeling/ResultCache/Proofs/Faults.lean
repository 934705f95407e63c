import ResultCache.Proofs.Publication
import ResultCache.Proofs.StoreRequests

/-!
# Stores whose calls fail

A call that fails changes nothing, and any other acts as on a map.
-/

namespace ResultCache

variable {σ ω α : Type}

/-- The error with which a call fails, if it does, given the calls that were made before it. -/
abbrev Faults (σ : Type) := List (σ × StoreRequest) → σ × StoreRequest → Option Error

namespace Action

/-- Carries out a step that is a call, unless the call fails, and writes the call down in either
case. -/
def subjectTo (action : Action ω α) (faults : Faults σ) (call : σ × StoreRequest) :
    Action (ω × List (σ × StoreRequest)) α :=
  .ofFunction fun world =>
    match faults world.2 call with
    | some e => (.error e, (world.1, world.2 ++ [call]))
    | none =>
      match action.runOn world.1 with
      | (result, after) => (result, (after, world.2 ++ [call]))

variable {faults : Faults σ} {call : σ × StoreRequest} {log : List (σ × StoreRequest)}

private theorem runOn_subjectTo_of_fault (action : Action ω α) (world : ω) {e : Error}
    (h : faults log call = some e) :
    (action.subjectTo faults call).runOn (world, log) = (.error e, (world, log ++ [call])) := by
  simp only [subjectTo, runOn_ofFunction, h]

private theorem runOn_subjectTo_of_spared (action : Action ω α) (world : ω)
    (h : faults log call = none) :
    (action.subjectTo faults call).runOn (world, log) =
      ((action.runOn world).1, ((action.runOn world).2, log ++ [call])) := by
  simp only [subjectTo, runOn_ofFunction, h]

private theorem map_subjectTo {β : Type} (f : α → β) (action : Action ω α) (faults : Faults σ)
    (call : σ × StoreRequest) :
    f <$> action.subjectTo faults call = (f <$> action).subjectTo faults call := by
  funext ⟨world, log⟩
  change (f <$> action.subjectTo faults call).runOn (world, log) =
    ((f <$> action).subjectTo faults call).runOn (world, log)
  rw [runOn_map]
  cases h : faults log call with
  | some e =>
    rw [runOn_subjectTo_of_fault action world h, runOn_subjectTo_of_fault _ world h]
    rfl
  | none =>
    rw [runOn_subjectTo_of_spared action world h, runOn_subjectTo_of_spared _ world h, runOn_map]

end Action

/-- Stores every call on which is written down and fails as a rule says. -/
def Stores.failing (stores : Stores σ ω) (faults : Faults σ) :
    Stores σ (ω × List (σ × StoreRequest)) :=
  stores.changed fun store call action => action.subjectTo faults (store, call)

namespace StoreRequest

theorem perform_failing (stores : Stores σ ω) (faults : Faults σ) (store : σ)
    (call : StoreRequest) :
    call.perform (stores.failing faults) store =
      (call.perform stores store).subjectTo faults (store, call) :=
  perform_changed
    (fun f place request action => Action.map_subjectTo f action faults (place, request))
    stores store call

def changes : StoreRequest → Bool
  | put .. | remove _ | clear => true
  | get _ | contains _ | size => false

def effect : StoreRequest → Texts → Texts
  | put name text, texts => Function.update texts name (some text)
  | remove name, texts => Function.update texts name none
  | clear, _ => fun _ => none
  | get _, texts | contains _, texts | size, texts => texts

def effects (calls : List StoreRequest) (texts : Texts) : Texts :=
  calls.foldl (fun texts call => call.effect texts) texts

theorem effects_append (calls later : List StoreRequest) (texts : Texts) :
    effects (calls ++ later) texts = effects later (effects calls texts) := List.foldl_append

/-- A text that is kept after some calls was put by one of them, or it was there before and none of
them drops it. -/
theorem effects_source {calls : List StoreRequest} {texts : Texts} {name text : String}
    (h : effects calls texts name = some text) :
    .put name text ∈ calls ∨
      texts name = some text ∧ .clear ∉ calls ∧ .remove name ∉ calls := by
  induction calls generalizing texts with
  | nil => exact .inr ⟨h, by simp, by simp⟩
  | cons call rest ih =>
    have hrest : effects rest (call.effect texts) name = some text := h
    rcases ih hrest with hput | ⟨hbefore, hclear, hremove⟩
    · exact .inl (List.mem_cons_of_mem _ hput)
    · cases call with
      | put other text' =>
        by_cases hn : name = other
        · subst hn
          rw [effect, Function.update_self, Option.some.injEq] at hbefore
          exact .inl (hbefore ▸ List.mem_cons_self)
        · rw [effect, Function.update_of_ne hn] at hbefore
          exact .inr ⟨hbefore, by simp [hclear], by simp [hremove]⟩
      | remove other =>
        by_cases hn : name = other
        · subst hn
          rw [effect, Function.update_self] at hbefore
          cases hbefore
        · rw [effect, Function.update_of_ne hn] at hbefore
          exact .inr ⟨hbefore, by simp [hclear], by simp [hremove, hn]⟩
      | clear => cases hbefore
      | get other => exact .inr ⟨hbefore, by simp [hclear], by simp [hremove]⟩
      | contains other => exact .inr ⟨hbefore, by simp [hclear], by simp [hremove]⟩
      | size => exact .inr ⟨hbefore, by simp [hclear], by simp [hremove]⟩

theorem effects_of_untouched {calls : List StoreRequest} {name : String} (texts : Texts)
    (hclear : .clear ∉ calls) (hremove : .remove name ∉ calls)
    (hput : ∀ text, .put name text ∉ calls) : effects calls texts name = texts name := by
  induction calls generalizing texts with
  | nil => rfl
  | cons call rest ih =>
    simp only [List.mem_cons, not_or] at hclear hremove hput
    have hcall : call.effect texts name = texts name := by
      cases call with
      | put other text =>
        exact Function.update_of_ne (fun hn => (hput text).1 (by rw [hn])) _ _
      | remove other => exact Function.update_of_ne (fun hn => hremove.1 (by rw [hn])) _ _
      | clear => exact absurd rfl hclear.1
      | get other => rfl
      | contains other => rfl
      | size => rfl
    rw [← hcall]
    exact ih _ hclear.2 hremove.2 fun text => (hput text).2

/-- Makes calls on a store one after the other, up to the first that fails. -/
def makeAll (stores : Stores σ ω) (store : σ) (calls : List StoreRequest) : Action ω Unit :=
  calls.forM fun call => discard (call.perform stores store)

end StoreRequest

theorem discard_map {β : Type} (f : α → β) (action : Action ω α) :
    Functor.discard (f <$> action) = Functor.discard action := by
  funext world
  change ((fun _ => ()) <$> f <$> action).runOn world = ((fun _ => ()) <$> action).runOn world
  rw [Action.runOn_map, Action.runOn_map, Action.runOn_map]
  rcases action.runOn world with ⟨_ | _, _⟩ <;> rfl

theorem discard_unit (action : Action ω Unit) : Functor.discard action = action := id_map action

namespace StoreRequest

theorem makeAll_cons (stores : Stores σ ω) (store : σ) (call : StoreRequest)
    (calls : List StoreRequest) :
    makeAll stores store (call :: calls) =
      (discard (call.perform stores store) >>= fun _ => makeAll stores store calls) := rfl

theorem makeAll_append (stores : Stores σ ω) (store : σ) (calls later : List StoreRequest) :
    makeAll stores store (calls ++ later) =
      (makeAll stores store calls >>= fun _ => makeAll stores store later) := by
  exact List.forM_append

end StoreRequest

namespace MapFamily

variable [DecidableEq σ] {stores : Stores σ ω}

theorem makes_perform (maps : MapFamily stores) (store : σ) {call : StoreRequest}
    (h : call.changes = true) :
    maps.Makes store (discard (call.perform stores store)) call.effect := by
  cases call with
  | put name text =>
    rw [StoreRequest.perform, discard_map]
    exact makes_call (maps.put store name text)
  | remove name =>
    rw [StoreRequest.perform, discard_map]
    exact makes_call (maps.remove store name)
  | clear =>
    rw [StoreRequest.perform, discard_map]
    exact makes_call (maps.clear store)
  | get name => cases h
  | contains name => cases h
  | size => cases h

end MapFamily

/-- None of the calls on a store fails if they are made one after the other. -/
def Faults.Spares (faults : Faults σ) (store : σ) (log : List (σ × StoreRequest))
    (calls : List StoreRequest) : Prop :=
  ∀ before call after, calls = before ++ call :: after →
    faults (log ++ before.map (store, ·)) (store, call) = none

namespace Faults

variable {faults : Faults σ} {store : σ} {log : List (σ × StoreRequest)} {call : StoreRequest}
  {calls : List StoreRequest}

private theorem spares_nil : faults.Spares store log [] := by
  intro before call after h
  simp at h

private theorem spares_cons (h : faults log (store, call) = none)
    (hrest : faults.Spares store (log ++ [(store, call)]) calls) :
    faults.Spares store log (call :: calls) := by
  intro before other after hsplit
  cases before with
  | nil =>
    obtain ⟨rfl, rfl⟩ := List.cons.inj hsplit
    simpa using h
  | cons first before =>
    obtain ⟨rfl, htail⟩ := List.cons.inj hsplit
    simpa using hrest before other after htail

end Faults

/-- What comes of calls on a store that are to be made one after the other: the result, the calls
that are made, and those of them that are carried out. Either none fails and all are carried out, or
they are made up to the first that fails. -/
inductive Attempt (faults : Faults σ) (store : σ) (log : List (σ × StoreRequest)) :
    (calls : List StoreRequest) → Except Error Unit → (made carried : List StoreRequest) → Prop
  | completed {calls : List StoreRequest} (spared : faults.Spares store log calls) :
    Attempt faults store log calls (.ok ()) calls calls
  | stopped (before : List StoreRequest) {after : List StoreRequest} {call : StoreRequest}
    {e : Error} (spared : faults.Spares store log before)
    (fault : faults (log ++ before.map (store, ·)) (store, call) = some e) :
    Attempt faults store log (before ++ call :: after) (.error e) (before ++ [call]) before

namespace Attempt

variable {faults : Faults σ} {store : σ} {log : List (σ × StoreRequest)} {call : StoreRequest}
  {calls made carried : List StoreRequest} {result : Except Error Unit}

private theorem cons (h : faults log (store, call) = none)
    (hrest : Attempt faults store (log ++ [(store, call)]) calls result made carried) :
    Attempt faults store log (call :: calls) result (call :: made) (call :: carried) := by
  cases hrest with
  | completed spared => exact .completed (Faults.spares_cons h spared)
  | stopped _ spared fault =>
    exact .stopped (call :: carried) (Faults.spares_cons h spared) (by simpa using fault)

end Attempt

theorem StoreRequest.runOn_makeAll [DecidableEq σ] {stores : Stores σ ω} (maps : MapFamily stores)
    (faults : Faults σ) (store : σ) (calls : List StoreRequest)
    (changing : ∀ call ∈ calls, call.changes = true) (world : ω) (log : List (σ × StoreRequest))
    (healthy : maps.healthy world store) :
    ∃ result made carried after,
      (makeAll (stores.failing faults) store calls).runOn (world, log) =
        (result, (after, log ++ made.map (store, ·))) ∧
      Attempt faults store log calls result made carried ∧
      maps.held after =
        Function.update (maps.held world) store (effects carried (maps.held world store)) ∧
      ∀ other, maps.healthy world other → maps.healthy after other := by
  induction calls generalizing world log with
  | nil =>
    refine ⟨.ok (), [], [], world, ?_, .completed Faults.spares_nil, ?_, fun _ h => h⟩
    · rw [List.map_nil, List.append_nil]
      rfl
    · exact (Function.update_eq_self _ _).symm
  | cons call rest ih =>
    have hcall : discard (call.perform (stores.failing faults) store) =
        (discard (call.perform stores store)).subjectTo faults (store, call) := by
      rw [perform_failing]
      exact Action.map_subjectTo _ _ _ _
    rw [makeAll_cons, Action.runOn_bind, hcall]
    cases hfault : faults log (store, call) with
    | some e =>
      refine ⟨.error e, [call], [], world, ?_, ?_, ?_, fun _ h => h⟩
      · rw [Action.runOn_subjectTo_of_fault _ _ hfault]
        rfl
      · exact .stopped [] Faults.spares_nil (by simpa using hfault)
      · exact (Function.update_eq_self _ _).symm
    | none =>
      obtain ⟨middle, hrun, hheld, hkeeps⟩ :=
        maps.makes_perform store (changing call (by simp)) world healthy
      obtain ⟨result, made, carried, after, hrest, hattempt, hheld', hkeeps'⟩ :=
        ih (fun c hc => changing c (List.mem_cons_of_mem _ hc)) middle (log ++ [(store, call)])
          (hkeeps store healthy)
      refine ⟨result, call :: made, call :: carried, after, ?_, hattempt.cons hfault, ?_,
        fun other h => hkeeps' other (hkeeps other h)⟩
      · rw [Action.runOn_subjectTo_of_spared _ _ hfault, hrun]
        simpa using hrest
      · rw [hheld', hheld, Function.update_self, Function.update_idem]
        rfl

end ResultCache
