/-!
How computations end that may fail. A step either yields a result of a given sort or fails for a
cause of a given sort, and so does a chain of such steps; a step that carries state hands it on to
the next one, or to whoever asks when it has failed.
-/

set_option autoImplicit false

namespace SyntaxGraph

variable {Cause State Result Next : Type} {fails : Cause → Prop}

/-- A result is of one sort, or an error is of another. -/
def Leads (fails : Cause → Prop) (yields : Result → Prop) : Except Cause Result → Prop
  | .ok result => yields result
  | .error cause => fails cause

theorem Leads.bind {yields : Result → Prop} {ends : Next → Prop} {first : Except Cause Result}
    {next : Result → Except Cause Next} (leads : Leads fails yields first)
    (continues : ∀ result, yields result → Leads fails ends (next result)) :
    Leads fails ends (first >>= next) := by
  cases first with
  | ok result => exact continues result leads
  | error cause => exact leads

theorem Leads.weaken {allowed : Cause → Prop} {yields ends : Result → Prop}
    {outcome : Except Cause Result} (leads : Leads fails yields outcome)
    (fewer : ∀ cause, fails cause → allowed cause) (more : ∀ result, yields result → ends result) :
    Leads allowed ends outcome := by
  cases outcome with
  | ok result => exact more result leads
  | error cause => exact fewer cause leads

theorem Leads.error_of_eq {yields : Result → Prop} {outcome : Except Cause Result}
    (leads : Leads fails yields outcome) {cause : Cause} (raised : outcome = .error cause) :
    fails cause := by
  rw [raised] at leads
  exact leads

theorem Leads.mapM {Item : Type} {yields : Result → Prop} {items : List Item}
    {step : Item → Except Cause Result} (each : ∀ item ∈ items, Leads fails yields (step item)) :
    Leads fails (fun results => ∀ result ∈ results, yields result) (items.mapM step) := by
  induction items with
  | nil => exact fun _ listed => absurd listed List.not_mem_nil
  | cons item rest induction =>
      obtain ⟨here, behind⟩ := List.forall_mem_cons.1 each
      rw [List.mapM_cons]
      apply here.bind
      intro result yielded
      exact (induction behind).bind fun results others => List.forall_mem_cons.2 ⟨yielded, others⟩

theorem exists_of_bind_ok {first : Except Cause Result} {next : Result → Except Cause Next}
    {final : Next} (yielded : first >>= next = .ok final) :
    ∃ result, first = .ok result ∧ next result = .ok final := by
  cases first with
  | ok result => exact ⟨result, rfl, yielded⟩
  | error cause => cases yielded

theorem cases_of_bind_error {first : Except Cause Result} {next : Result → Except Cause Next}
    {cause : Cause} (raised : first >>= next = .error cause) :
    first = .error cause ∨ ∃ result, first = .ok result ∧ next result = .error cause := by
  cases first with
  | ok result => exact Or.inr ⟨result, rfl, raised⟩
  | error other =>
      cases raised
      exact Or.inl rfl

theorem to_option_bind (first : Except Cause Result) (next : Result → Except Cause Next) :
    (first >>= next).toOption = first.toOption.bind fun result => (next result).toOption := by
  cases first with
  | ok result => rfl
  | error cause => rfl

theorem ok_iff_to_option {outcome : Except Cause Result} {result : Result} :
    outcome = .ok result ↔ outcome.toOption = some result := by
  cases outcome with
  | ok yielded => simp [Except.toOption]
  | error cause => simp [Except.toOption]

def Finds (absent : Prop) (sought : Result → Prop) : Option Result → Prop
  | some result => sought result
  | none => absent

theorem Finds.iff {absent : Prop} {sought : Result → Prop} {found : Option Result}
    (finds : Finds absent sought found)
    (unique : ∀ first second, sought first → sought second → first = second)
    (apart : ∀ result, sought result → ¬absent) :
    (∀ result, found = some result ↔ sought result) ∧ (found = none ↔ absent) := by
  cases found with
  | some first =>
      refine ⟨fun result => ⟨fun same => ?_, fun also => congrArg some (unique _ _ finds also)⟩, ?_⟩
      · rw [← Option.some.inj same]
        exact finds
      · constructor
        · exact fun same => absurd same (Option.some_ne_none first)
        · exact fun gone => absurd gone (apart first finds)
  | none =>
      refine ⟨fun result => ⟨fun same => ?_, fun also => absurd finds (apart _ also)⟩, ?_⟩
      · exact absurd same.symm (Option.some_ne_none result)
      · exact ⟨fun _ => finds, fun _ => rfl⟩

/-- Two computations fail for one cause, or they yield results that are related. -/
def Alike {Other : Type} (related : Result → Other → Prop) :
    Except Cause Result → Except Cause Other → Prop
  | .ok result, .ok other => related result other
  | .error cause, .error other => cause = other
  | _, _ => False

theorem Alike.both_or_neither {Other : Type} {related : Result → Other → Prop}
    {first : Except Cause Result} {second : Except Cause Other}
    (alike : Alike related first second) :
    (∃ result other, first = .ok result ∧ second = .ok other ∧ related result other) ∨
      ∃ cause, first = .error cause ∧ second = .error cause := by
  cases first with
  | ok result =>
      cases second with
      | ok other => exact Or.inl ⟨result, other, rfl, rfl, alike⟩
      | error cause => exact alike.elim
  | error cause =>
      cases second with
      | ok other => exact alike.elim
      | error other => exact Or.inr ⟨cause, rfl, congrArg Except.error (Eq.symm alike)⟩

theorem Alike.bind {Value Shown Other : Type} {earlier : Value → Shown → Prop}
    {related : Result → Other → Prop} {first : Except Cause Value} {second : Except Cause Shown}
    {next : Value → Except Cause Result} {another : Shown → Except Cause Other}
    (alike : Alike earlier first second)
    (continues : ∀ value shown, earlier value shown →
      Alike related (next value) (another shown)) :
    Alike related (first >>= next) (second >>= another) := by
  rcases alike.both_or_neither with ⟨value, shown, rfl, rfl, holds⟩ | ⟨cause, rfl, rfl⟩
  · exact continues value shown holds
  · rfl

theorem alike_of_same_bind {Value Other : Type} {related : Result → Other → Prop}
    (first : Except Cause Value) {next : Value → Except Cause Result}
    {another : Value → Except Cause Other}
    (continues : ∀ value, Alike related (next value) (another value)) :
    Alike related (first >>= next) (first >>= another) := by
  cases first with
  | ok value => exact continues value
  | error cause => rfl

theorem run_bind (first : ExceptT Cause (StateM State) Result)
    (next : Result → ExceptT Cause (StateM State) Next) (state : State) :
    (first >>= next).run.run state =
      match first.run.run state with
      | (.ok result, after) => (next result).run.run after
      | (.error cause, after) => (.error cause, after) := by
  cases ran : first.run.run state with
  | mk outcome after =>
      cases outcome with
      | ok result =>
          rw [ExceptT.run_bind, StateT.run_bind, ran]
          rfl
      | error cause =>
          rw [ExceptT.run_bind, StateT.run_bind, ran]
          rfl

end SyntaxGraph
