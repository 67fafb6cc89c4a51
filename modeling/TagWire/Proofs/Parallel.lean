import Mathlib.Algebra.Ring.Nat
import TagWire.Error

/-!
# Two runs side by side

The same calls are made on two states, and what comes of each call is written
down with what can be seen behind it.  If every call comes out alike on related
states and leaves related states, the two records are the same.

Memory is the one thing that the states need not have in common.  Where it is
scarce, a call may be refused memory on one side only, and the records are the
same up to there.
-/

namespace TagWire

section Watching

variable {σ α ω ι : Type}

/-- What came of an action, and the state behind it. -/
def settle : EStateM.Result WireError σ α → Except WireError α × σ
  | .ok answer after => (.ok answer, after)
  | .error error after => (.error error, after)

/-- What came of each call, and what could be seen of the state behind it. -/
def watch (action : ι → EStateM WireError σ α) (look : σ → ω) :
    List ι → σ → List (Except WireError α × ω)
  | [], _ => []
  | call :: calls, state =>
    let (outcome, after) := settle (action call state)
    (outcome, look after) :: watch action look calls after

/-- The action failed for want of memory. -/
def Starves (result : EStateM.Result WireError σ α) : Prop :=
  ∃ requested after, result = .error (.allocationFailed requested) after

/-- Two actions came out alike and left related states, unless memory is scarce
and one of them got none. -/
inductive Parallel (scarce : Prop) (related : σ → σ → Prop) :
    EStateM.Result WireError σ α → EStateM.Result WireError σ α → Prop where
  | answered {answer : α} {left right : σ} :
      related left right →
      Parallel scarce related (.ok answer left) (.ok answer right)
  | refused {error : WireError} {left right : σ} :
      related left right →
      Parallel scarce related (.error error left) (.error error right)
  | starved {left right : EStateM.Result WireError σ α} :
      scarce → Starves left ∨ Starves right →
      Parallel scarce related left right

theorem Parallel.settle_cases {scarce : Prop} {related : σ → σ → Prop}
    {left right : EStateM.Result WireError σ α}
    (parallel : Parallel scarce related left right) :
    ((settle left).1 = (settle right).1 ∧
        related (settle left).2 (settle right).2) ∨
      (scarce ∧ ∃ requested,
        (settle left).1 = .error (.allocationFailed requested) ∨
          (settle right).1 = .error (.allocationFailed requested)) := by
  cases parallel with
  | answered states => exact .inl ⟨rfl, states⟩
  | refused states => exact .inl ⟨rfl, states⟩
  | starved lacking starving =>
      right
      refine ⟨lacking, ?_⟩
      rcases starving with ⟨requested, after, rfl⟩ | ⟨requested, after, rfl⟩
      · exact ⟨requested, .inl rfl⟩
      · exact ⟨requested, .inr rfl⟩

theorem Parallel.mono {scarce wanting : Prop} {related further : σ → σ → Prop}
    {left right : EStateM.Result WireError σ α}
    (parallel : Parallel scarce related left right)
    (implies : scarce → wanting)
    (weakens : ∀ left right, related left right → further left right) :
    Parallel wanting further left right := by
  cases parallel with
  | answered states => exact .answered (weakens _ _ states)
  | refused states => exact .refused (weakens _ _ states)
  | starved lacking starving => exact .starved (implies lacking) starving

theorem Starves.bind {β : Type} {action : EStateM WireError σ α} {state : σ}
    (starves : Starves (action state)) (rest : α → EStateM WireError σ β) :
    Starves ((action >>= rest) state) := by
  obtain ⟨requested, after, failed⟩ := starves
  refine ⟨requested, after, ?_⟩
  simp only [Bind.bind, EStateM.bind, failed]

theorem Parallel.bind {β : Type} {scarce : Prop}
    {related further : σ → σ → Prop} {action : EStateM WireError σ α}
    {rest : α → EStateM WireError σ β} {left right : σ}
    (first : Parallel scarce related (action left) (action right))
    (second : ∀ answer left right, related left right →
      Parallel scarce further (rest answer left) (rest answer right))
    (weakens : ∀ left right, related left right → further left right) :
    Parallel scarce further ((action >>= rest) left)
      ((action >>= rest) right) := by
  generalize leftDone : action left = leftResult at first
  generalize rightDone : action right = rightResult at first
  cases first with
  | answered states =>
      simp only [Bind.bind, EStateM.bind, leftDone, rightDone]
      exact second _ _ _ states
  | refused states =>
      simp only [Bind.bind, EStateM.bind, leftDone, rightDone]
      exact .refused (weakens _ _ states)
  | starved lacking starving =>
      apply Parallel.starved lacking
      rcases starving with leftStarves | rightStarves
      · left
        rw [← leftDone] at leftStarves
        exact leftStarves.bind rest
      · right
        rw [← rightDone] at rightStarves
        exact rightStarves.bind rest

/-- Two records of calls are the same, unless memory is scarce and one of them
tells of a call that got none, where the other may go on. -/
inductive Agree (scarce : Prop) :
    List (Except WireError α × ω) → List (Except WireError α × ω) → Prop where
  | nil : Agree scarce [] []
  | cons {first second : Except WireError α × ω}
      {left right : List (Except WireError α × ω)} :
      first = second → Agree scarce left right →
      Agree scarce (first :: left) (second :: right)
  | starved {first second : Except WireError α × ω} {requested : Nat}
      (left right : List (Except WireError α × ω)) :
      scarce →
      first.1 = .error (.allocationFailed requested) ∨
        second.1 = .error (.allocationFailed requested) →
      Agree scarce (first :: left) (second :: right)

theorem Agree.mono {scarce wanting : Prop}
    {left right : List (Except WireError α × ω)}
    (agree : Agree scarce left right) (implies : scarce → wanting) :
    Agree wanting left right := by
  induction agree with
  | nil => exact .nil
  | cons same _ induction => exact .cons same induction
  | starved left right lacking starving =>
      exact .starved left right (implies lacking) starving

theorem Agree.eq {scarce : Prop} {left right : List (Except WireError α × ω)}
    (agree : Agree scarce left right) (plenty : ¬scarce) : left = right := by
  induction agree with
  | nil => rfl
  | cons same _ induction => rw [same, induction]
  | starved _ _ lacking _ => exact (plenty lacking).elim

/-- If no call got no memory, nothing is left that could differ. -/
theorem Agree.eq_of_served {scarce : Prop}
    {left right : List (Except WireError α × ω)}
    (agree : Agree scarce left right)
    (served : ∀ entry ∈ left ++ right, ∀ requested,
      entry.1 ≠ .error (.allocationFailed requested)) : left = right := by
  induction agree with
  | nil => rfl
  | @cons first second left right same _ induction =>
      have servedBehind : ∀ entry ∈ left ++ right, ∀ requested,
          entry.1 ≠ .error (.allocationFailed requested) := by
        intro entry member
        apply served entry
        rcases List.mem_append.mp member with before | behind
        · simp [before]
        · simp [behind]
      rw [same, induction servedBehind]
  | @starved first second requested left right lacking starving =>
      rcases starving with failed | failed
      · exact (served first (by simp) requested failed).elim
      · exact (served second (by simp) requested failed).elim

/-- Calls that come out alike whenever they are made on related states make the
same record. -/
theorem watch_agree {action : ι → EStateM WireError σ α} {look : σ → ω}
    (related : σ → σ → Prop) (place : σ → Nat) (size : ι → Nat)
    (scarce : Nat → Prop)
    (monotone : ∀ {less more}, less ≤ more → scarce less → scarce more)
    (seen : ∀ left right, related left right → look left = look right)
    (step : ∀ call left right, related left right →
      Parallel (scarce (place left + size call))
        (fun after other => related after other ∧
          place after ≤ place left + size call)
        (action call left) (action call right))
    (calls : List ι) {left right : σ} (start : related left right) :
    Agree (scarce (place left + (calls.map size).sum))
      (watch action look calls left) (watch action look calls right) := by
  -- The states change with every call, and so does the place: what is wanted of
  -- the rest is counted from where the first call has come to.
  induction calls generalizing left right with
  | nil => exact .nil
  | cons call calls induction =>
      simp only [watch, List.map_cons, List.sum_cons]
      rcases (step call left right start).settle_cases with
        ⟨sameOutcome, behind, bounded⟩ | ⟨lacking, requested, starving⟩
      · apply Agree.cons
        · rw [sameOutcome, seen _ _ behind]
        · apply (induction behind).mono
          apply monotone
          omega
      · apply Agree.starved
        · apply monotone _ lacking
          omega
        · exact starving

end Watching

end TagWire
