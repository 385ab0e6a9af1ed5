import Mathlib.Data.List.Forall2
import PegForest.Fault

/-!
# Computations that may end in a fault

How a sequence of steps goes on after a result and stops at a fault, and five ways to reason about
such sequences step by step: `Yields` speaks about the result of one computation, if there is one,
and `Raises` about its fault; `Agree` about two computations that end alike; `Concur` about two
computations whose faults may differ as well; `Exhausts` about a computation that does what another
one does unless it meets a bound.
-/

set_option autoImplicit false

namespace PegForest

namespace Fault

variable {β γ : Type}

@[simp] theorem pure_eq_ok (b : β) : (pure b : Except Fault β) = .ok b := rfl

@[simp] theorem ok_bind (b : β) (next : β → Except Fault γ) : (Except.ok b >>= next) = next b := rfl

@[simp] theorem error_bind (fault : Fault) (next : β → Except Fault γ) :
    ((Except.error fault : Except Fault β) >>= next) = .error fault := rfl

theorem bind_eq_ok {first : Except Fault β} {next : β → Except Fault γ} {c : γ} :
    (first >>= next) = .ok c ↔ ∃ b, first = .ok b ∧ next b = .ok c := by
  cases first <;> simp

theorem bind_returns {first : Except Fault β} {next : β → Except Fault γ}
    (returns : ∃ b, first = .ok b) (later : ∀ b, ∃ c, next b = .ok c) :
    ∃ c, (first >>= next) = .ok c := by
  obtain ⟨b, rfl⟩ := returns
  exact later b

theorem exists_of_toBool {computation : Except Fault β} (returns : computation.toBool = true) :
    ∃ b, computation = .ok b := by
  cases computation with
  | ok b => exact ⟨b, rfl⟩
  | error fault => cases returns

theorem mapM_of_forall₂ {α : Type} {action : α → Except Fault β} {result : γ → β} {as : List α}
    {cs : List γ} (each : List.Forall₂ (fun a c => action a = .ok (result c)) as cs) :
    as.mapM action = .ok (cs.map result) := by
  induction each with
  | nil => rfl
  | cons here _ ih => simp [List.mapM_cons, here, ih]

end Fault

def Yields {β : Type} (P : β → Prop) (computation : Except Fault β) : Prop :=
  ∀ b, computation = .ok b → P b

namespace Yields

variable {β γ : Type} {P : β → Prop} {Q : γ → Prop}

theorem ok {b : β} (holds : P b) : Yields P (.ok b) := by
  intro b' same
  cases same
  exact holds

theorem error (fault : Fault) : Yields P (.error fault) := by
  intro b same
  cases same

theorem bind {first : Except Fault β} {next : β → Except Fault γ} (yields : Yields P first)
    (goesOn : ∀ b, P b → Yields Q (next b)) : Yields Q (first >>= next) := by
  intro c same
  obtain ⟨b, found, rest⟩ := Fault.bind_eq_ok.mp same
  exact goesOn b (yields b found) c rest

theorem bind_any {first : Except Fault β} {next : β → Except Fault γ}
    (goesOn : ∀ b, Yields Q (next b)) : Yields Q (first >>= next) :=
  bind (P := fun _ => True) (fun _ _ => trivial) fun b _ => goesOn b

end Yields

def Raises {β : Type} (P : Fault → Prop) (computation : Except Fault β) : Prop :=
  ∀ fault, computation = .error fault → P fault

namespace Raises

variable {β γ : Type} {P : Fault → Prop}

theorem ok (b : β) : Raises P (.ok b) := by
  intro fault same
  cases same

theorem error {fault : Fault} (holds : P fault) : Raises P (.error fault : Except Fault β) := by
  intro fault' same
  cases same
  exact holds

theorem bind {first : Except Fault β} {next : β → Except Fault γ} (raises : Raises P first)
    (goesOn : ∀ b, Raises P (next b)) : Raises P (first >>= next) := by
  cases first with
  | ok b => exact goesOn b
  | error fault => exact error (raises fault rfl)

end Raises

/-- Two computations have related results or stop with the same fault. -/
inductive Agree {β γ : Type} (P : β → γ → Prop) : Except Fault β → Except Fault γ → Prop where
  | ok {b : β} {c : γ} (related : P b c) : Agree P (.ok b) (.ok c)
  | error (fault : Fault) : Agree P (.error fault) (.error fault)

namespace Agree

variable {β β' γ γ' : Type} {P : β → γ → Prop} {Q : β' → γ' → Prop}

theorem bind {first : Except Fault β} {first' : Except Fault γ} {next : β → Except Fault β'}
    {next' : γ → Except Fault γ'} (agree : Agree P first first')
    (goesOn : ∀ b c, first' = .ok c → P b c → Agree Q (next b) (next' c)) :
    Agree Q (first >>= next) (first' >>= next') := by
  cases agree with
  | ok related => exact goesOn _ _ rfl related
  | error fault => exact .error fault

theorem of_ok {b : β} {other : Except Fault γ} (agree : Agree P (.ok b) other) :
    ∃ c, other = .ok c ∧ P b c := by
  cases agree with
  | ok related => exact ⟨_, rfl, related⟩

theorem of_error {fault : Fault} {other : Except Fault γ} (agree : Agree P (.error fault) other) :
    other = .error fault := by
  cases agree with
  | error _ => rfl

theorem mono {Q : β → γ → Prop} {first : Except Fault β} {first' : Except Fault γ}
    (agree : Agree P first first') (weaker : ∀ b c, P b c → Q b c) : Agree Q first first' := by
  cases agree with
  | ok related => exact .ok (weaker _ _ related)
  | error fault => exact .error fault

theorem refl {P : β → β → Prop} (same : ∀ b, P b b) (computation : Except Fault β) :
    Agree P computation computation := by
  cases computation with
  | ok b => exact .ok (same b)
  | error fault => exact .error fault

theorem symm {first : Except Fault β} {second : Except Fault γ} (agree : Agree P first second) :
    Agree (fun c b => P b c) second first := by
  cases agree with
  | ok related => exact .ok related
  | error fault => exact .error fault

theorem trans {δ : Type} {Q : γ → δ → Prop} {S : β → δ → Prop} {first : Except Fault β}
    {second : Except Fault γ} {third : Except Fault δ} (agree : Agree P first second)
    (agree' : Agree Q second third) (whole : ∀ b c d, P b c → Q c d → S b d) :
    Agree S first third := by
  cases agree with
  | ok related =>
      cases agree' with
      | ok related' => exact .ok (whole _ _ _ related related')
  | error fault =>
      cases agree' with
      | error _ => exact .error fault

theorem eq {P : β → β → Prop} {first second : Except Fault β} (agree : Agree P first second)
    (same : ∀ b c, P b c → b = c) : first = second := by
  cases agree with
  | ok related => rw [same _ _ related]
  | error fault => rfl

theorem bind_same {R : β → Prop} {first : Except Fault β} {next : β → Except Fault β'}
    {next' : β → Except Fault γ'} (yields : Yields R first)
    (goesOn : ∀ b, R b → Agree Q (next b) (next' b)) : Agree Q (first >>= next) (first >>= next') := by
  cases first with
  | ok b => exact goesOn b (yields b rfl)
  | error fault => exact .error fault

theorem step {b : β} {first : Except Fault β} {next : β → Except Fault β'} {other : Except Fault γ'}
    (taken : first = .ok b) (goesOn : Agree Q (next b) other) : Agree Q (first >>= next) other := by
  rw [taken]
  exact goesOn

end Agree

/-- Two computations have related results or stop with related faults. -/
inductive Concur {β γ : Type} (stops : Fault → Fault → Prop) (P : β → γ → Prop) :
    Except Fault β → Except Fault γ → Prop where
  | ok {b : β} {c : γ} (related : P b c) : Concur stops P (.ok b) (.ok c)
  | error {fault fault' : Fault} (related : stops fault fault') :
      Concur stops P (.error fault) (.error fault')

namespace Concur

variable {β β' γ γ' : Type} {stops : Fault → Fault → Prop} {P : β → γ → Prop} {Q : β' → γ' → Prop}

theorem bind {first : Except Fault β} {first' : Except Fault γ} {next : β → Except Fault β'}
    {next' : γ → Except Fault γ'} (concur : Concur stops P first first')
    (goesOn : ∀ b c, P b c → Concur stops Q (next b) (next' c)) :
    Concur stops Q (first >>= next) (first' >>= next') := by
  cases concur with
  | ok related => exact goesOn _ _ related
  | error related => exact .error related

theorem mono {Q : β → γ → Prop} {first : Except Fault β} {first' : Except Fault γ}
    (concur : Concur stops P first first') (weaker : ∀ b c, P b c → Q b c) :
    Concur stops Q first first' := by
  cases concur with
  | ok related => exact .ok (weaker _ _ related)
  | error related => exact .error related

theorem mono_stops {stops' : Fault → Fault → Prop} {first : Except Fault β}
    {first' : Except Fault γ} (concur : Concur stops P first first')
    (weaker : ∀ f g, stops f g → stops' f g) : Concur stops' P first first' := by
  cases concur with
  | ok related => exact .ok related
  | error related => exact .error (weaker _ _ related)

theorem refl {computation : Except Fault β}
    (raises : Raises (fun fault => stops fault fault) computation) :
    Concur stops Eq computation computation := by
  cases computation with
  | ok b => exact .ok rfl
  | error fault => exact .error (raises fault rfl)

theorem symm {first : Except Fault β} {second : Except Fault γ} (concur : Concur stops P first second) :
    Concur (fun fault' fault => stops fault fault') (fun c b => P b c) second first := by
  cases concur with
  | ok related => exact .ok related
  | error related => exact .error related

theorem trans {δ : Type} {stops' stops'' : Fault → Fault → Prop} {Q : γ → δ → Prop}
    {S : β → δ → Prop} {first : Except Fault β} {second : Except Fault γ} {third : Except Fault δ}
    (concur : Concur stops P first second) (concur' : Concur stops' Q second third)
    (faults : ∀ f g h, stops f g → stops' g h → stops'' f h)
    (whole : ∀ b c d, P b c → Q c d → S b d) : Concur stops'' S first third := by
  cases concur with
  | ok related =>
      cases concur' with
      | ok related' => exact .ok (whole _ _ _ related related')
  | error related =>
      cases concur' with
      | error related' => exact .error (faults _ _ _ related related')

theorem and_left {Q : β → Prop} {first : Except Fault β} {second : Except Fault γ}
    (concur : Concur stops P first second) (yields : Yields Q first) :
    Concur stops (fun b c => P b c ∧ Q b) first second := by
  cases concur with
  | ok related => exact .ok ⟨related, yields _ rfl⟩
  | error related => exact .error related

theorem and_right {Q : γ → Prop} {first : Except Fault β} {second : Except Fault γ}
    (concur : Concur stops P first second) (yields : Yields Q second) :
    Concur stops (fun b c => P b c ∧ Q c) first second := by
  cases concur with
  | ok related => exact .ok ⟨related, yields _ rfl⟩
  | error related => exact .error related

theorem of_ok {b : β} {other : Except Fault γ} (concur : Concur stops P (.ok b) other) :
    ∃ c, other = .ok c ∧ P b c := by
  cases concur with
  | ok related => exact ⟨_, rfl, related⟩

theorem of_error {fault : Fault} {other : Except Fault γ}
    (concur : Concur stops P (.error fault) other) :
    ∃ fault', other = .error fault' ∧ stops fault fault' := by
  cases concur with
  | error related => exact ⟨_, rfl, related⟩

/-- Both stop with a fault or neither does, if the fault is related to itself alone. -/
theorem error_iff {fault : Fault} {first : Except Fault β} {second : Except Fault γ}
    (concur : Concur stops P first second) (alone : ∀ f g, stops f g → (f = fault ↔ g = fault)) :
    first = .error fault ↔ second = .error fault := by
  cases concur with
  | ok related => exact ⟨nofun, nofun⟩
  | error related => simp only [Except.error.injEq, alone _ _ related]

theorem agree {first : Except Fault β} {second : Except Fault γ} (concur : Concur Eq P first second) :
    Agree P first second := by
  cases concur with
  | ok related => exact .ok related
  | error related =>
      subst related
      exact .error _

end Concur

theorem Agree.concur {β γ : Type} {stops : Fault → Fault → Prop} {P : β → γ → Prop}
    {first : Except Fault β} {second : Except Fault γ} (agree : Agree P first second)
    (same : ∀ fault, stops fault fault) : Concur stops P first second := by
  cases agree with
  | ok related => exact .ok related
  | error fault => exact .error (same fault)

/-- A computation that meets a bound or else does what another one does. -/
def Exhausts {β : Type} (computation other : Except Fault β) : Prop :=
  computation = .error .exhausted ∨ computation = other

namespace Exhausts

variable {β γ : Type}

theorem same (computation : Except Fault β) : Exhausts computation computation :=
  .inr rfl

theorem bind {first other : Except Fault β} {next next' : β → Except Fault γ}
    (exhausts : Exhausts first other) (goesOn : ∀ b, Exhausts (next b) (next' b)) :
    Exhausts (first >>= next) (other >>= next') := by
  rcases exhausts with bound | rfl
  · exact .inl (by rw [bound]; rfl)
  · cases first with
    | ok b => exact goesOn b
    | error fault => exact .inr rfl

theorem eq_of_ok {computation other : Except Fault β} {b : β} (exhausts : Exhausts computation other)
    (returned : computation = .ok b) : other = .ok b := by
  rcases exhausts with bound | rfl
  · rw [bound] at returned
    cases returned
  · exact returned

end Exhausts

end PegForest
