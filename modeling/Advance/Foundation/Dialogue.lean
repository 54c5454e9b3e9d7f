import Mathlib.Data.List.Basic

/-! # Programs that ask an environment

A dialogue asks one question after another; the next may depend on the answers.  An
attempt is a dialogue that can fail on the way, and then asks nothing more.
-/

namespace Advance.Foundation

inductive Dialogue {Op : Type} (Answer : Op → Type) (Result : Type) where
  | finish (result : Result)
  | ask (op : Op) (next : Answer op → Dialogue Answer Result)

/-- A question with its answer. -/
abbrev Exchange {Op : Type} (Answer : Op → Type) := (op : Op) × Answer op

namespace Dialogue

variable {Op : Type} {Answer : Op → Type} {Result Middle : Type}

def andThen : Dialogue Answer Middle → (Middle → Dialogue Answer Result) → Dialogue Answer Result
  | finish middle, next => next middle
  | ask op rest, next => ask op fun answer => (rest answer).andThen next

inductive Spoken : Dialogue Answer Result → List (Exchange Answer) → Dialogue Answer Result → Prop
  | start {dialogue : Dialogue Answer Result} : Spoken dialogue [] dialogue
  | ask {op : Op} {next : Answer op → Dialogue Answer Result} {answer : Answer op}
      {history : List (Exchange Answer)} {rest : Dialogue Answer Result} :
      Spoken (next answer) history rest → Spoken (ask op next) (⟨op, answer⟩ :: history) rest

def Completes (dialogue : Dialogue Answer Result) (history : List (Exchange Answer)) (result : Result) : Prop :=
  Spoken dialogue history (finish result)

variable {history : List (Exchange Answer)} {rest : Dialogue Answer Result} {result : Result}

@[simp] theorem spoken_finish : Spoken (finish result) history rest ↔ history = [] ∧ rest = finish result := by
  constructor
  · intro spoken
    cases spoken
    exact ⟨rfl, rfl⟩
  · rintro ⟨rfl, rfl⟩
    exact .start

def Asks (dialogue : Dialogue Answer Result) (history : List (Exchange Answer)) (op : Op) : Prop :=
  ∃ next, Spoken dialogue history (ask op next)

@[simp] theorem completes_finish {result other : Result} :
    Completes (finish result : Dialogue Answer Result) history other ↔ history = [] ∧ other = result := by
  rw [Completes, spoken_finish]
  simp

@[simp] theorem spoken_nil {dialogue rest : Dialogue Answer Result} : Spoken dialogue [] rest ↔ rest = dialogue := by
  constructor
  · intro spoken
    cases spoken
    rfl
  · rintro rfl
    exact .start

@[simp] theorem spoken_ask {op : Op} {next : Answer op → Dialogue Answer Result} {answer : Answer op} :
    Spoken (ask op next) (⟨op, answer⟩ :: history) rest ↔ Spoken (next answer) history rest := by
  constructor
  · intro spoken
    cases spoken with
    | ask later => exact later
  · exact .ask

variable {dialogue : Dialogue Answer Middle}

theorem spoken_andThen {next : Middle → Dialogue Answer Result} :
    Spoken (dialogue.andThen next) history rest ↔
      (∃ middle, Spoken dialogue history middle ∧ rest = middle.andThen next) ∨
      ∃ front back middle, history = front ++ back ∧ Completes dialogue front middle ∧
        Spoken (next middle) back rest := by
  induction dialogue generalizing history with
  | finish middle =>
    constructor
    · exact fun spoken => .inr ⟨[], history, middle, rfl, .start, spoken⟩
    · rintro (⟨still, spoken, rfl⟩ | ⟨front, back, middle, rfl, done, spoken⟩)
      · obtain ⟨rfl, rfl⟩ := spoken_finish.mp spoken
        exact .start
      · obtain ⟨rfl, rfl⟩ := completes_finish.mp done
        exact spoken
  | ask op next ih =>
    constructor
    · intro spoken
      cases spoken with
      | start => exact .inl ⟨_, .start, rfl⟩
      | ask later =>
        rcases (ih _).mp later with ⟨middle, still, rfl⟩ | ⟨front, back, middle, rfl, done, more⟩
        · exact .inl ⟨middle, .ask still, rfl⟩
        · exact .inr ⟨_ :: front, back, middle, rfl, .ask done, more⟩
    · rintro (⟨middle, spoken, rfl⟩ | ⟨front, back, middle, rfl, done, more⟩)
      · cases spoken with
        | start => exact .start
        | ask later => exact .ask ((ih _).mpr (.inl ⟨middle, later, rfl⟩))
      · cases done with
        | ask later => exact .ask ((ih _).mpr (.inr ⟨_, back, middle, rfl, later, more⟩))

theorem completes_andThen {next : Middle → Dialogue Answer Result} :
    Completes (dialogue.andThen next) history result ↔
      ∃ front back middle, history = front ++ back ∧ Completes dialogue front middle ∧
        Completes (next middle) back result := by
  constructor
  · intro completes
    rcases spoken_andThen.mp completes with ⟨middle, still, same⟩ | split
    · cases middle with
      | finish middle =>
        have finished : next middle = finish result := same.symm
        exact ⟨history, [], middle, (List.append_nil _).symm, still, finished ▸ .start⟩
      | ask op rest => cases same
    · exact split
  · exact fun split => spoken_andThen.mpr (.inr split)

/-! ## Part of the questions -/

variable {OtherOp : Type} {OtherAnswer : OtherOp → Type}

/-- The same dialogue where there are other questions too. -/
def left : Dialogue Answer Result → Dialogue (Sum.elim Answer OtherAnswer) Result
  | finish result => finish result
  | ask op next => ask (.inl op) fun answer => (next answer).left

def leftExchange (exchange : Exchange Answer) : Exchange (Sum.elim Answer OtherAnswer) :=
  ⟨.inl exchange.1, exchange.2⟩

theorem spoken_left {dialogue : Dialogue Answer Result} {history : List (Exchange (Sum.elim Answer OtherAnswer))}
    {rest : Dialogue (Sum.elim Answer OtherAnswer) Result} : Spoken dialogue.left history rest ↔
      ∃ spoken middle, history = spoken.map leftExchange ∧ rest = middle.left ∧ Spoken dialogue spoken middle := by
  induction dialogue generalizing history with
  | finish result =>
    rw [left, spoken_finish]
    constructor
    · rintro ⟨rfl, rfl⟩
      exact ⟨[], finish result, rfl, rfl, .start⟩
    · rintro ⟨spoken, middle, rfl, rfl, said⟩
      obtain ⟨rfl, rfl⟩ := spoken_finish.mp said
      exact ⟨rfl, rfl⟩
  | ask op next ih =>
    constructor
    · intro said
      cases said with
      | start => exact ⟨[], ask op next, rfl, rfl, .start⟩
      | ask later =>
        obtain ⟨spoken, middle, rfl, rfl, more⟩ := (ih _).mp later
        exact ⟨⟨op, _⟩ :: spoken, middle, rfl, rfl, .ask more⟩
    · rintro ⟨spoken, middle, rfl, rfl, said⟩
      cases said with
      | start => exact .start
      | ask later => exact .ask ((ih _).mpr ⟨_, middle, rfl, rfl, later⟩)

theorem completes_left {dialogue : Dialogue Answer Result} {history : List (Exchange (Sum.elim Answer OtherAnswer))} :
    Completes dialogue.left history result ↔
      ∃ spoken, history = spoken.map leftExchange ∧ Completes dialogue spoken result := by
  rw [Completes, spoken_left]
  constructor
  · rintro ⟨spoken, middle, rfl, same, said⟩
    cases middle with
    | finish other =>
      cases same
      exact ⟨spoken, rfl, said⟩
    | ask op next => cases same
  · rintro ⟨spoken, rfl, said⟩
    exact ⟨spoken, finish result, rfl, rfl, said⟩

/-! ## Questions under a guard -/

section

variable {kind : Op → Prop} {guard : List (Exchange Answer) → Prop}

/-- Whenever a question of the kind is asked, the guard holds of the answers so far. -/
def Guarded (kind : Op → Prop) (guard : List (Exchange Answer) → Prop) (dialogue : Dialogue Answer Result) : Prop :=
  ∀ op front rest, kind op → ∀ next : Answer op → Dialogue Answer Result,
    Spoken dialogue front rest → rest = ask op next → guard front

/-- No question of the kind is asked. -/
def Silent (kind : Op → Prop) (dialogue : Dialogue Answer Result) : Prop :=
  Guarded kind (fun _ => False) dialogue

theorem Silent.guarded {dialogue : Dialogue Answer Result} (silent : Silent kind dialogue) :
    Guarded kind guard dialogue :=
  fun op front rest isKind next spoken same => (silent op front rest isKind next spoken same).elim

theorem guarded_finish {result : Result} : Guarded kind guard (finish result : Dialogue Answer Result) := by
  intro op front rest _ next spoken same
  obtain ⟨rfl, rfl⟩ := spoken_finish.mp spoken
  cases same

theorem guarded_andThen {dialogue : Dialogue Answer Middle} {next : Middle → Dialogue Answer Result}
    (first : Guarded kind guard dialogue) (later : ∀ front middle, Completes dialogue front middle →
      Guarded kind (fun back => guard (front ++ back)) (next middle)) :
    Guarded kind guard (dialogue.andThen next) := by
  intro op history rest isKind following spoken same
  rcases spoken_andThen.mp spoken with ⟨middle, still, rfl⟩ | ⟨front, back, middle, rfl, done, more⟩
  · cases middle with
    | finish middle =>
      have after : guard (history ++ []) :=
        later history middle still op [] (next middle) isKind following .start same
      rwa [List.append_nil] at after
    | ask other more =>
      cases same
      exact first op history _ isKind _ still rfl
  · exact later front middle done op back rest isKind following more same

theorem Guarded.of_asked {dialogue rest : Dialogue Answer Result} (guarded : Guarded kind guard dialogue)
    {front back : List (Exchange Answer)} {op : Op} {answer : Answer op} (isKind : kind op)
    (spoken : Spoken dialogue (front ++ ⟨op, answer⟩ :: back) rest) : guard front := by
  obtain ⟨next, early⟩ : ∃ next, Spoken dialogue front (ask op next) := by
    clear guarded
    induction front generalizing dialogue with
    | nil =>
      cases spoken with
      | ask later => exact ⟨_, .start⟩
    | cons exchange front ih =>
      cases spoken with
      | ask later =>
        obtain ⟨next, early⟩ := ih later
        exact ⟨next, .ask early⟩
  exact guarded op front _ isKind next early rfl

theorem silent_once {op : Op} {result : Result} (other : ¬kind op) :
    Silent kind (ask op fun _ => finish result : Dialogue Answer Result) := by
  intro asked front rest isKind next spoken same
  cases spoken with
  | start =>
    cases same
    exact other isKind
  | ask later =>
    obtain ⟨rfl, rfl⟩ := spoken_finish.mp later
    cases same

theorem silent_left {OtherOp : Type} {OtherAnswer : OtherOp → Type} {kind : Op ⊕ OtherOp → Prop}
    (others : ∀ op, ¬kind (.inl op)) (dialogue : Dialogue Answer Result) :
    Silent kind (dialogue.left : Dialogue (Sum.elim Answer OtherAnswer) Result) := by
  intro op front rest isKind next spoken same
  obtain ⟨_, middle, _, rfl, _⟩ := spoken_left.mp spoken
  cases middle with
  | finish result => cases same
  | ask own more =>
    cases same
    exact others own isKind

end

/-! ## A steady environment -/

def answered (environment : ∀ op, Answer op) : Dialogue Answer Result → Result
  | finish result => result
  | ask op next => (next (environment op)).answered environment

theorem answered_andThen (environment : ∀ op, Answer op) (dialogue : Dialogue Answer Middle)
    (next : Middle → Dialogue Answer Result) : (dialogue.andThen next).answered environment =
      (next (dialogue.answered environment)).answered environment := by
  induction dialogue with
  | finish middle => rfl
  | ask op rest ih => exact ih _

/-! ## An environment that remembers -/

section

variable (environment : List (Exchange Answer) → ∀ op, Answer op)

def follow : List (Exchange Answer) → Dialogue Answer Result → List (Exchange Answer) × Result
  | _, finish result => ([], result)
  | past, ask op next =>
    let exchange : Exchange Answer := ⟨op, environment past op⟩
    let later := follow (past ++ [exchange]) (next (environment past op))
    (exchange :: later.1, later.2)

theorem completes_follow (past : List (Exchange Answer)) (dialogue : Dialogue Answer Result) :
    Completes dialogue (follow environment past dialogue).1 (follow environment past dialogue).2 := by
  induction dialogue generalizing past with
  | finish result => exact .start
  | ask op next ih => exact .ask (ih _ _)

theorem follow_answer {past front back : List (Exchange Answer)} {dialogue : Dialogue Answer Result}
    {op : Op} {answer : Answer op} (history : (follow environment past dialogue).1 = front ++ ⟨op, answer⟩ :: back) :
    answer = environment (past ++ front) op := by
  induction dialogue generalizing past front with
  | finish result => simp [follow] at history
  | ask asked next ih =>
    cases front with
    | nil =>
      obtain ⟨same, _⟩ := List.cons.inj history
      cases same
      rw [List.append_nil]
    | cons exchange front =>
      obtain ⟨rfl, later⟩ := List.cons.inj history
      rw [ih _ later, List.append_assoc, List.singleton_append]

end

end Dialogue

/-! ## Attempts -/

open Dialogue

def Attempt {Op : Type} (Answer : Op → Type) (Failure Value : Type) :=
  Dialogue Answer (Except Failure Value)

namespace Attempt

variable {Op : Type} {Answer : Op → Type} {Failure Value Other : Type}

def bind (attempt : Attempt Answer Failure Value) (next : Value → Attempt Answer Failure Other) :
    Attempt Answer Failure Other :=
  Dialogue.andThen attempt fun result =>
    match result with
    | .error failure => finish (.error failure)
    | .ok value => next value

instance : Monad (Attempt Answer Failure) where
  pure value := finish (.ok value)
  bind := bind

def fail (failure : Failure) : Attempt Answer Failure Value := finish (.error failure)

/-- The failure, unless the condition holds. -/
def demand (condition : Prop) [Decidable condition] (failure : Failure) : Attempt Answer Failure Unit :=
  if condition then pure () else fail failure

def question (op : Op) : Attempt Answer Failure (Answer op) :=
  ask op fun answer => finish (.ok answer)

def Passes (attempt : Attempt Answer Failure Value) (history : List (Exchange Answer)) (value : Value) : Prop :=
  Completes attempt history (.ok value)

def Speaks (attempt : Attempt Answer Failure Value) (history : List (Exchange Answer))
    (rest : Attempt Answer Failure Value) : Prop :=
  Spoken attempt history rest

section

variable {history : List (Exchange Answer)} {attempt : Attempt Answer Failure Value}
  {next : Value → Attempt Answer Failure Other}

@[simp] theorem passes_pure {value other : Value} :
    Passes (pure value : Attempt Answer Failure Value) history other ↔ history = [] ∧ other = value :=
  completes_finish.trans (by simp)

variable {failure : Failure}

@[simp] theorem passes_fail {value : Value} :
    Passes (fail failure : Attempt Answer Failure Value) history value ↔ False :=
  completes_finish.trans (by simp)

@[simp] theorem passes_question {op : Op} {answer : Answer op} :
    Passes (question op : Attempt Answer Failure (Answer op)) history answer ↔ history = [⟨op, answer⟩] := by
  constructor
  · intro passes
    cases passes with
    | ask later =>
      obtain ⟨rfl, same⟩ := completes_finish.mp later
      cases same
      rfl
  · rintro rfl
    exact .ask .start

@[simp] theorem passes_demand {condition : Prop} [Decidable condition] {value : Unit} :
    Passes (demand condition failure : Attempt Answer Failure Unit) history value ↔ history = [] ∧ condition := by
  unfold demand
  split
  next holds => simp [holds]
  next fails => simp [fails]

variable {other : Other}

theorem passes_bind : Passes (attempt >>= next) history other ↔
      ∃ front back value, history = front ++ back ∧ Passes attempt front value ∧ Passes (next value) back other := by
  refine completes_andThen.trans ?_
  constructor
  · rintro ⟨front, back, result, rfl, first, later⟩
    cases result with
    | error failure => exact nomatch (completes_finish.mp later).2
    | ok value => exact ⟨front, back, value, rfl, first, later⟩
  · rintro ⟨front, back, value, rfl, first, later⟩
    exact ⟨front, back, .ok value, rfl, first, later⟩

@[simp] theorem passes_demand_bind {condition : Prop} [Decidable condition]
    {next : Unit → Attempt Answer Failure Other} :
    Passes (demand condition failure >>= next) history other ↔ condition ∧ Passes (next ()) history other := by
  rw [passes_bind]
  constructor
  · rintro ⟨front, back, value, rfl, first, later⟩
    obtain ⟨rfl, holds⟩ := passes_demand.mp first
    exact ⟨holds, later⟩
  · rintro ⟨holds, later⟩
    exact ⟨[], history, (), rfl, passes_demand.mpr ⟨rfl, holds⟩, later⟩

theorem passes_bind_of_question {op : Op} {told : Value → Answer op}
    (one : ∀ front value, Passes attempt front value ↔ front = [⟨op, told value⟩]) :
    Passes (attempt >>= next) history other ↔
      ∃ value back, history = ⟨op, told value⟩ :: back ∧ Passes (next value) back other := by
  rw [passes_bind]
  constructor
  · rintro ⟨front, back, value, rfl, first, later⟩
    obtain rfl := (one front value).mp first
    exact ⟨value, back, rfl, later⟩
  · rintro ⟨value, back, rfl, later⟩
    exact ⟨[⟨op, told value⟩], back, value, rfl, (one _ _).mpr rfl, later⟩

end

/-! ## Guards -/

section

variable {kind : Op → Prop} {guard : List (Exchange Answer) → Prop}

variable {value : Value}

theorem guarded_pure : Guarded kind guard (pure value : Attempt Answer Failure Value) := guarded_finish

theorem guarded_fail {failure : Failure} :
    Guarded kind guard (fail failure : Attempt Answer Failure Value) := guarded_finish

theorem guarded_demand {condition : Prop} [Decidable condition] {failure : Failure} :
    Guarded kind guard (demand condition failure : Attempt Answer Failure Unit) := by
  unfold demand
  split
  next => exact guarded_pure
  next => exact guarded_fail

theorem guarded_question {op : Op} (start : kind op → guard []) :
    Guarded kind guard (question op : Attempt Answer Failure (Answer op)) := by
  intro asked front rest isKind next spoken same
  cases spoken with
  | start =>
    cases same
    exact start isKind
  | ask later =>
    obtain ⟨rfl, rfl⟩ := spoken_finish.mp later
    cases same

/-- An attempt keeps a guard if its parts do, each after what was answered before it. -/
theorem guarded_bind {attempt : Attempt Answer Failure Value} {next : Value → Attempt Answer Failure Other}
    (first : Guarded kind guard attempt) (later : ∀ front value, Passes attempt front value →
      Guarded kind (fun back => guard (front ++ back)) (next value)) :
    Guarded kind guard (attempt >>= next : Attempt Answer Failure Other) := by
  refine guarded_andThen first fun front result done => ?_
  cases result with
  | error failure => exact guarded_finish
  | ok value => exact later front value done

theorem silent_bind {attempt : Attempt Answer Failure Value} {next : Value → Attempt Answer Failure Other}
    (first : Silent kind attempt) (later : ∀ value, Silent kind (next value)) :
    Silent kind (attempt >>= next : Attempt Answer Failure Other) :=
  guarded_bind first fun _ value _ => later value

/-- The attempt, with something done after it whether it fails or not. -/
def ensure (cleanup : Dialogue Answer Unit) (attempt : Attempt Answer Failure Value) : Attempt Answer Failure Value :=
  Dialogue.andThen attempt fun result => Dialogue.andThen cleanup fun _ => finish result

/-- The attempt, with something done after it if it fails. -/
def onFailure (cleanup : Dialogue Answer Unit) (attempt : Attempt Answer Failure Value) :
    Attempt Answer Failure Value :=
  Dialogue.andThen attempt fun result =>
    match result with
    | .error failure => Dialogue.andThen cleanup fun _ => finish (.error failure)
    | .ok value => finish (.ok value)

variable {cleanup : Dialogue Answer Unit} {attempt : Attempt Answer Failure Value}

theorem guarded_ensure (first : Guarded kind guard attempt) (silent : Silent kind cleanup) :
    Guarded kind guard (ensure cleanup attempt) :=
  guarded_andThen first fun _ _ _ => guarded_andThen silent.guarded fun _ _ _ => guarded_finish

theorem guarded_onFailure (first : Guarded kind guard attempt) (silent : Silent kind cleanup) :
    Guarded kind guard (onFailure cleanup attempt) := by
  refine guarded_andThen first fun _ result _ => ?_
  cases result with
  | error failure => exact guarded_andThen silent.guarded fun _ _ _ => guarded_finish
  | ok value => exact guarded_finish

theorem passes_ensure {history : List (Exchange Answer)} (passes : Passes (ensure cleanup attempt) history value) :
    ∃ front back, history = front ++ back ∧ Passes attempt front value := by
  obtain ⟨front, back, result, rfl, first, later⟩ := completes_andThen.mp passes
  obtain ⟨_, _, _, _, _, done⟩ := completes_andThen.mp later
  obtain ⟨_, rfl⟩ := completes_finish.mp done
  exact ⟨front, back, rfl, first⟩

theorem passes_onFailure {history : List (Exchange Answer)} :
    Passes (onFailure cleanup attempt) history value ↔ Passes attempt history value := by
  refine completes_andThen.trans ?_
  constructor
  · rintro ⟨front, back, result, rfl, first, later⟩
    cases result with
    | error failure =>
      obtain ⟨_, _, _, _, _, done⟩ := completes_andThen.mp later
      exact nomatch (completes_finish.mp done).2
    | ok value =>
      obtain ⟨rfl, same⟩ := completes_finish.mp later
      cases same
      rw [List.append_nil]
      exact first
  · intro passes
    exact ⟨history, [], .ok value, (List.append_nil _).symm, passes, .start⟩

end

/-! ## A steady environment -/

section

variable (environment : ∀ op, Answer op)

/-- What the attempt comes to where each question has one answer. -/
def outcome (attempt : Attempt Answer Failure Value) : Except Failure Value :=
  answered environment attempt

@[simp] theorem outcome_pure (value : Value) :
    outcome environment (pure value : Attempt Answer Failure Value) = .ok value := rfl

@[simp] theorem outcome_fail (failure : Failure) :
    outcome environment (fail failure : Attempt Answer Failure Value) = .error failure := rfl

@[simp] theorem outcome_question (op : Op) :
    outcome environment (question op : Attempt Answer Failure (Answer op)) = .ok (environment op) := rfl

theorem outcome_bind (attempt : Attempt Answer Failure Value)
    (next : Value → Attempt Answer Failure Other) (other : Other) :
    outcome environment (attempt >>= next) = .ok other ↔
      ∃ value, outcome environment attempt = .ok value ∧ outcome environment (next value) = .ok other := by
  have step : outcome environment (attempt >>= next) = answered environment (match outcome environment attempt with
        | .error failure => finish (.error failure)
        | .ok value => next value) := answered_andThen environment attempt _
  rw [step]
  cases outcome environment attempt with
  | error failure => simp [answered]
  | ok value => simp [outcome]

end

end Attempt

end Advance.Foundation
