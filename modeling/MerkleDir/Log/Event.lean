/-!
# Log events

Computations report what they do as a list of events beside their result. An event carries a message,
named fields and the spans that were open when it was made, outermost first.
-/
namespace MerkleDir.Log

/-- Levels in descending order of weight. -/
inductive Level where
  | error
  | warn
  | info
  | debug
  | trace
  deriving DecidableEq, Repr, Inhabited

def Level.rank : Level → Nat
  | .error => 1
  | .warn => 2
  | .info => 3
  | .debug => 4
  | .trace => 5

def Level.text : Level → String
  | .error => "ERROR"
  | .warn => "WARN"
  | .info => "INFO"
  | .debug => "DEBUG"
  | .trace => "TRACE"

/-- A text is quoted where a shown value is not. The time that something took has a field, but its value
is not kept. -/
inductive FieldValue where
  | text (value : String)
  | shown (value : String)
  | number (value : Nat)
  | flag (value : Bool)
  | elapsed
  deriving DecidableEq, Repr

structure Field where
  name : String
  value : FieldValue
  deriving DecidableEq, Repr

structure Span where
  name : String
  target : String
  fields : List Field
  deriving DecidableEq, Repr

structure Event where
  level : Level
  target : String
  message : String
  fields : List Field
  spans : List Span
  deriving DecidableEq, Repr

/-- The fields that are recorded. -/
def Event.recorded (event : Event) : List Field := event.fields.filter (·.value ≠ .elapsed)

/-- Spans are made at this level. -/
def Span.level : Level := .info

end MerkleDir.Log

namespace MerkleDir

/-- A value with the events that its computation made. -/
structure Logged (α : Type) where
  value : α
  events : List Log.Event

namespace Logged

def pure {α : Type} (value : α) : Logged α := ⟨value, []⟩

def bind {α β : Type} (x : Logged α) (f : α → Logged β) : Logged β :=
  let y := f x.value
  ⟨y.value, x.events ++ y.events⟩

instance : Monad Logged where
  pure := Logged.pure
  bind := Logged.bind

@[simp] theorem value_pure {α : Type} (a : α) : (Pure.pure a : Logged α).value = a := rfl

@[simp] theorem value_bind {α β : Type} (x : Logged α) (f : α → Logged β) :
    (x >>= f).value = (f x.value).value := rfl

instance : LawfulMonad Logged := LawfulMonad.mk' Logged
  (fun ⟨_, events⟩ => congrArg _ (List.append_nil events))
  (fun _ _ => rfl)
  (fun _ _ _ => congrArg _ (List.append_assoc _ _ _))

def record (event : Log.Event) : Logged Unit := ⟨(), [event]⟩

/-- Opens a span around all events of a computation. -/
def within {α : Type} (span : Log.Span) (x : Logged α) : Logged α :=
  ⟨x.value, x.events.map fun e => { e with spans := span :: e.spans }⟩

@[simp] theorem value_within {α : Type} (span : Log.Span) (x : Logged α) :
    (x.within span).value = x.value := rfl

section Failing

variable {ε α β : Type}

/-- The outcome of a computation that may fail, without its events. -/
def result (x : ExceptT ε Logged α) : Except ε α := x.run.value

@[simp] theorem result_pure (a : α) : result (Pure.pure a : ExceptT ε Logged α) = .ok a := rfl

@[simp] theorem result_throw (e : ε) : result (throw e : ExceptT ε Logged α) = .error e := rfl

@[simp] theorem result_mk (x : Logged (Except ε α)) : result (ExceptT.mk x) = x.value := rfl

@[simp] theorem result_lift (x : Logged α) :
    result (liftM x : ExceptT ε Logged α) = .ok x.value := rfl

@[simp] theorem result_bind (x : ExceptT ε Logged α) (f : α → ExceptT ε Logged β) :
    result (x >>= f) = result x >>= fun a => result (f a) := by
  show (Logged.bind x.run (ExceptT.bindCont f)).value = _
  rw [result, Logged.bind]
  cases x.run.value <;> rfl

@[simp] theorem result_map (f : α → β) (x : ExceptT ε Logged α) :
    result (f <$> x) = (result x).map f := by
  rw [map_eq_pure_bind, result_bind]
  cases result x <;> rfl

theorem result_bind_eq_ok {x : ExceptT ε Logged α} {f : α → ExceptT ε Logged β} {b : β} :
    result (x >>= f) = .ok b ↔ ∃ a, result x = .ok a ∧ result (f a) = .ok b := by
  rw [result_bind]
  cases result x <;> simp [Bind.bind, Except.bind]

theorem result_bind_eq_error {x : ExceptT ε Logged α} {f : α → ExceptT ε Logged β} {e : ε} :
    result (x >>= f) = .error e ↔
      result x = .error e ∨ ∃ a, result x = .ok a ∧ result (f a) = .error e := by
  rw [result_bind]
  cases result x <;> simp [Bind.bind, Except.bind]

@[simp] theorem result_tryCatch (x : ExceptT ε Logged α) (handler : ε → ExceptT ε Logged α) :
    result (tryCatch x handler) = match result x with
      | .ok a => .ok a
      | .error e => result (handler e) := by
  show (Logged.bind x.run fun r => match r with
    | .ok a => Pure.pure (.ok a)
    | .error e => (handler e).run).value = _
  rw [result, Logged.bind]
  cases x.run.value <;> rfl

/-- Goes on after a computation, knowing that it has succeeded. -/
def bindWith (x : ExceptT ε Logged α) (f : (a : α) → result x = .ok a → ExceptT ε Logged β) :
    ExceptT ε Logged β :=
  ExceptT.mk <|
    match h : result x with
    | .error e => ⟨.error e, x.run.events⟩
    | .ok a => ⟨(f a h).run.value, x.run.events ++ (f a h).run.events⟩

/-- Where what follows does not depend on the knowledge. -/
theorem result_bindWith (x : ExceptT ε Logged α) (f : α → ExceptT ε Logged β) :
    result (bindWith x fun a _ => f a) = result x >>= fun a => result (f a) := by
  rw [bindWith, result_mk]
  split
  · rename_i e he
    rw [he]
    rfl
  · rename_i a ha
    rw [ha]
    rfl

end Failing

end Logged
end MerkleDir
