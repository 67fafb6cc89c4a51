/-!
# Answers of steps in sequence

What a sequence of steps answers has been answered by each step in turn.  Taken
apart in this way, a check or a decoder is the conjunction of its steps, and
nothing need be said of the errors that none of them made.  What a sequence
refuses has been refused by the first step that did not answer.
-/

namespace TagWire

section Outcomes

variable {ε α β : Type} {answer : β}

theorem bind_ok_iff {outcome : Except ε α} {rest : α → Except ε β} :
    (outcome >>= rest) = .ok answer ↔
      ∃ middle, outcome = .ok middle ∧ rest middle = .ok answer := by
  cases outcome <;> simp [bind, Except.bind]

theorem mapError_ok_iff {ε' : Type} {outcome : Except ε' β} {name : ε' → ε} :
    outcome.mapError name = .ok answer ↔ outcome = .ok answer := by
  cases outcome with
  | ok value =>
      have kept : (Except.ok value : Except ε' β).mapError name =
          .ok value := rfl
      rw [kept]
      simp
  | error error =>
      have renamed : (Except.error error : Except ε' β).mapError name =
          .error (name error) := rfl
      rw [renamed]
      simp

/-- A refusal on the way has not happened. -/
theorem refusal_ok_iff {refused : Prop} [Decidable refused] {error : ε}
    {unreached : α → Except ε β} {rest : Except ε β} :
    (if refused then (throw error : Except ε α) >>= unreached else rest) =
        .ok answer ↔
      ¬refused ∧ rest = .ok answer := by
  by_cases because : refused
  · simp [because, bind, Except.bind, throw, throwThe, MonadExceptOf.throw]
  · simp [because]

theorem lastRefusal_ok_iff {refused : Prop} [Decidable refused] {error : ε} :
    (if refused then throw error else (pure () : Except ε Unit)) = .ok () ↔
      ¬refused := by
  by_cases because : refused
  · simp [because, throw, throwThe, MonadExceptOf.throw]
  · simp [because, pure, Except.pure]

/-! ## Refusals -/

variable {early : ε}

theorem bind_error_iff {outcome : Except ε α} {rest : α → Except ε β} :
    (outcome >>= rest) = .error early ↔
      outcome = .error early ∨
        ∃ middle, outcome = .ok middle ∧ rest middle = .error early := by
  cases outcome <;> simp [bind, Except.bind]

theorem mapError_error_iff {ε' : Type} {outcome : Except ε' β}
    {name : ε' → ε} :
    outcome.mapError name = .error early ↔
      ∃ error, outcome = .error error ∧ early = name error := by
  cases outcome with
  | ok value =>
      have kept : (Except.ok value : Except ε' β).mapError name =
          .ok value := rfl
      rw [kept]
      simp
  | error error =>
      have renamed : (Except.error error : Except ε' β).mapError name =
          .error (name error) := rfl
      rw [renamed]
      simp [eq_comm]

theorem refusal_error_iff {refused : Prop} [Decidable refused] {error : ε}
    {unreached : α → Except ε β} {rest : Except ε β} :
    (if refused then (throw error : Except ε α) >>= unreached else rest) =
        .error early ↔
      (refused ∧ early = error) ∨ (¬refused ∧ rest = .error early) := by
  by_cases because : refused
  · simp [because, bind, Except.bind, throw, throwThe, MonadExceptOf.throw,
      eq_comm]
  · simp [because]

theorem lastRefusal_error_iff {refused : Prop} [Decidable refused]
    {error : ε} :
    (if refused then throw error else (pure () : Except ε Unit)) =
        .error early ↔
      refused ∧ early = error := by
  by_cases because : refused
  · simp [because, throw, throwThe, MonadExceptOf.throw, eq_comm]
  · simp [because, pure, Except.pure]

end Outcomes

/-! ## Actions on a state -/

section Running

variable {ε ε' σ α β : Type} {state next : σ}

theorem run_bind {action : StateM σ α} {rest : α → StateM σ β} {answer : α}
    (done : action state = (answer, next)) :
    (action >>= rest) state = rest answer next := by
  simp only [bind, StateT.bind, done]

theorem run_bind_ok {action : ExceptT ε (StateM σ) α}
    {rest : α → ExceptT ε (StateM σ) β} {answer : α}
    (done : action state = (.ok answer, next)) :
    (action >>= rest) state = rest answer next := by
  simp only [bind, ExceptT.bind, ExceptT.mk, StateT.bind, done]
  rfl

theorem run_bind_error {action : ExceptT ε (StateM σ) α}
    {rest : α → ExceptT ε (StateM σ) β} {error : ε}
    (failed : action state = (.error error, next)) :
    (action >>= rest) state = (.error error, next) := by
  simp only [bind, ExceptT.bind, ExceptT.mk, StateT.bind, failed]
  rfl

theorem run_adapt {action : ExceptT ε (StateM σ) α} {outcome : Except ε α}
    (ran : action state = (outcome, next)) (name : ε → ε') :
    (action.adapt name : ExceptT ε' (StateM σ) α) state =
      (outcome.mapError name, next) :=
  congrArg (fun served : Except ε α × σ =>
    (served.1.mapError name, served.2)) ran

end Running

/-! ## Lists -/

/-- Where each answer is found, all are. -/
theorem mapM_found {α β γ : Type} {shown : α → β} {find? : β → Option γ}
    {answer : α → γ} {list : List α}
    (found : ∀ one ∈ list, find? (shown one) = some (answer one)) :
    (list.map shown).mapM find? = some (list.map answer) := by
  induction list with
  | nil => rfl
  | cons one list induction =>
      have others := induction fun other inside =>
        found other (List.mem_cons_of_mem _ inside)
      rw [List.map_cons, List.mapM_cons, others, found one List.mem_cons_self]
      rfl

/-- Where each of a list is found again, the list is. -/
theorem mapM_restores {α β : Type} {shown : α → β} {find? : β → Option α}
    {list : List α} (found : ∀ one ∈ list, find? (shown one) = some one) :
    (list.map shown).mapM find? = some list :=
  (mapM_found found).trans (congrArg some (List.map_id' list))

theorem mapM_ok {ε α β : Type} {make : α → Except ε β} {list : List α}
    (makes : ∀ one ∈ list, ∃ made, make one = .ok made) :
    ∃ all, list.mapM make = .ok all ∧
      ∀ made ∈ all, ∃ one ∈ list, make one = .ok made := by
  induction list with
  | nil => exact ⟨[], rfl, nofun⟩
  | cons one list induction =>
      obtain ⟨made, first⟩ := makes one List.mem_cons_self
      obtain ⟨all, rest, origin⟩ := induction fun other member =>
        makes other (List.mem_cons_of_mem _ member)
      refine ⟨made :: all, ?_, ?_⟩
      · rw [List.mapM_cons, first, rest]
        rfl
      · intro other member
        rcases List.mem_cons.mp member with rfl | later
        · exact ⟨one, List.mem_cons_self, first⟩
        · obtain ⟨source, among, same⟩ := origin other later
          exact ⟨source, List.mem_cons_of_mem _ among, same⟩

end TagWire
