import Mathlib.Data.List.Basic

/-! Schedules of an executable transition system. A step answers `none` where
an action is not enabled, so a run exists exactly for the admissible orders. -/
namespace YPriceMagic.Async

section
variable {State Action : Type} {step : State → Action → Option State}

/-- Executes a schedule; `none` as soon as one of its actions is not enabled. -/
def run (step : State → Action → Option State) (initial : State) (actions : List Action) : Option State :=
  actions.foldlM step initial

def Throughout (step : State → Action → Option State) (condition : State → Action → Prop) :
    State → List Action → Prop
  | _, [] => True
  | before, action::rest => condition before action ∧
      ∀ next, step before action = some next → Throughout step condition next rest

@[simp] theorem run_nil (initial : State) : run step initial [] = some initial := rfl

theorem run_cons (initial : State) (action : Action) (rest : List Action) :
    run step initial (action::rest) = (step initial action).bind (run step · rest) := by
  simp [run,List.foldlM_cons]

theorem run_single (initial : State) (action : Action) : run step initial [action] = step initial action := by
  simp [run]

theorem run_cons_some {initial final : State} {action : Action} {rest : List Action}
    (ran : run step initial (action::rest) = some final) :
    ∃ next, step initial action = some next ∧ run step next rest = some final := by
  rw [run_cons] at ran
  exact Option.bind_eq_some_iff.mp ran

theorem run_append (initial : State) (first second : List Action) :
    run step initial (first++second) = (run step initial first).bind (run step · second) := by
  simp [run,List.foldlM_append]

theorem run_append_some {initial final : State} {first second : List Action}
    (ran : run step initial (first++second) = some final) :
    ∃ middle, run step initial first = some middle ∧ run step middle second = some final := by
  rw [run_append] at ran
  exact Option.bind_eq_some_iff.mp ran

theorem run_snoc {initial before after : State} {actions : List Action} {action : Action}
    (ran : run step initial actions = some before) (stepped : step before action = some after) :
    run step initial (actions++[action]) = some after := by
  rw [run_append,ran,Option.bind_some,run_cons,stepped,Option.bind_some,run_nil]

/-- Induction along a run, for what is said of a state together with the schedule before it. -/
theorem run_history {initial : State} (recorded : List Action → State → Prop) (start : recorded [] initial)
    (grows : ∀ actions before action after, run step initial actions = some before → recorded actions before →
      step before action = some after → recorded (actions++[action]) after)
    {actions : List Action} {final : State} (ran : run step initial actions = some final) : recorded actions final := by
  suffices forward : ∀ (later : List Action) (earlier : List Action) (middle : State), run step initial earlier = some middle →
      recorded earlier middle → run step middle later = some final → recorded (earlier++later) final from
    forward actions [] initial rfl start ran
  intro later
  induction later with
  | nil =>
    intro earlier middle _ held remaining
    cases Option.some.inj remaining
    rw [List.append_nil]
    exact held
  | cons action rest ih =>
    intro earlier middle ranBefore held remaining
    obtain ⟨next,stepped,remaining⟩ := run_cons_some remaining
    have further := ih (earlier++[action]) next (run_snoc ranBefore stepped) (grows _ _ _ _ ranBefore held stepped) remaining
    rwa [List.append_assoc] at further

theorem run_preserves (invariant : State → Prop)
    (preserved : ∀ before action after, invariant before → step before action = some after →
      invariant after)
    {initial final : State} {actions : List Action} (start : invariant initial)
    (ran : run step initial actions = some final) : invariant final := by
  induction actions generalizing initial with
  | nil =>
    cases Option.some.inj ran
    exact start
  | cons action rest ih =>
    obtain ⟨next,stepped,remaining⟩ := run_cons_some ran
    exact ih (preserved _ _ _ start stepped) remaining

theorem run_preserves_throughout (invariant : State → Prop) (condition : State → Action → Prop)
    (preserved : ∀ before action after, invariant before → condition before action →
      step before action = some after → invariant after)
    {initial final : State} {actions : List Action} (start : invariant initial)
    (meets : Throughout step condition initial actions)
    (ran : run step initial actions = some final) : invariant final := by
  induction actions generalizing initial with
  | nil =>
    cases Option.some.inj ran
    exact start
  | cons action rest ih =>
    obtain ⟨next,stepped,remaining⟩ := run_cons_some ran
    exact ih (preserved _ _ _ start meets.1 stepped) (meets.2 _ stepped) remaining

theorem throughout_append {condition : State → Action → Prop} {initial : State} {first second : List Action} :
    Throughout step condition initial (first++second) ↔ Throughout step condition initial first ∧
      ∀ middle, run step initial first = some middle → Throughout step condition middle second := by
  induction first generalizing initial with
  | nil => simp [Throughout]
  | cons action rest ih =>
    constructor
    · rintro ⟨met,others⟩
      refine ⟨⟨met,fun next stepped => (ih.mp (others next stepped)).1⟩,fun middle ran => ?_⟩
      obtain ⟨next,stepped,remaining⟩ := run_cons_some ran
      exact (ih.mp (others next stepped)).2 middle remaining
    · rintro ⟨⟨met,others⟩,later⟩
      refine ⟨met,fun next stepped => ih.mpr ⟨others next stepped,fun middle ran => later middle ?_⟩⟩
      rw [run_cons,stepped]
      exact ran

theorem throughout_of_all {condition : State → Action → Prop} (all : ∀ before action, condition before action)
    (initial : State) (actions : List Action) : Throughout step condition initial actions := by
  induction actions generalizing initial with
  | nil => trivial
  | cons action rest ih => exact ⟨all initial action,fun next _ => ih next⟩

/-- The condition at one action of a schedule. -/
theorem Throughout.among {condition : State → Action → Prop} {initial middle : State} {first rest : List Action} {action : Action}
    (meets : Throughout step condition initial (first++action::rest)) (ran : run step initial first = some middle) :
    condition middle action :=
  ((throughout_append.mp meets).2 middle ran).1

theorem Throughout.and {condition : State → Action → Prop} {among : Action → Prop} {initial : State} {actions : List Action}
    (meets : Throughout step condition initial actions) (all : ∀ action ∈ actions, among action) :
    Throughout step (fun before action => among action ∧ condition before action) initial actions := by
  induction actions generalizing initial with
  | nil => trivial
  | cons action rest ih =>
    obtain ⟨first,others⟩ := List.forall_mem_cons.mp all
    exact ⟨⟨first,meets.1⟩,fun next stepped => ih (meets.2 next stepped) others⟩

instance decidableThroughout {condition : State → Action → Prop}
    [∀ before action, Decidable (condition before action)] :
    (initial : State) → (actions : List Action) → Decidable (Throughout step condition initial actions)
  | _, [] => .isTrue trivial
  | before, action::rest =>
    match stepped : step before action with
    | none => decidable_of_iff (condition before action) ⟨fun met => ⟨met,fun next same => by simp [stepped] at same⟩,And.left⟩
    | some next =>
      have : Decidable (Throughout step condition next rest) := decidableThroughout next rest
      decidable_of_iff (condition before action ∧ Throughout step condition next rest)
        ⟨fun met => ⟨met.1,fun other same => by rw [stepped] at same; rw [← Option.some.inj same]; exact met.2⟩,
          fun met => ⟨met.1,met.2 next stepped⟩⟩

end

end YPriceMagic.Async
