import ApiCatalog.Document.Display
import ApiCatalog.Document.Fault

/-!
Remarks on what was left out or could not be told, and computations that make them. A computation
keeps the remarks made before it fails.
-/

namespace ApiCatalog

inductive Remark
  | unknownType (primitive : String)
  | skippedParameter (name location : Value)
  | duplicateParameter (name : Value)
  | placeholderTag (name : Value)
  | duplicateInterface (name : String)
  | emptyModule (name : String)
  | duplicateClass (name : String)
  | danglingBody (parameter reference model : String)
  | summary (modules classes : Nat)

inductive Level
  | debug
  | info
deriving DecidableEq, Repr

def Remark.level : Remark → Level
  | .summary _ _ => .info
  | _ => .debug

def Remark.message : Remark → String
  | .unknownType primitive => "Unknown schema type '" ++ primitive ++ "', resolving to 'any'"
  | .skippedParameter name location =>
    "Skipping parameter '" ++ name.shown ++ "' with unknown location '" ++ location.shown ++ "'"
  | .duplicateParameter name => "Dropping duplicate parameter '" ++ name.shown ++ "'"
  | .placeholderTag name => "Skipping placeholder tag '" ++ name.shown ++ "'"
  | .duplicateInterface name => "Dropping duplicate interface '" ++ name ++ "'"
  | .emptyModule name => "Dropping module '" ++ name ++ "' without interfaces"
  | .duplicateClass name => "Dropping duplicate base class '" ++ name ++ "'"
  | .danglingBody parameter reference model =>
    "Dropping body parameter '" ++ parameter ++ "' of '" ++ reference ++ "': model '" ++ model ++
      "' is not declared"
  | .summary modules classes =>
    "Normalized " ++ toString modules ++ " modules and " ++ toString classes ++ " base classes"

/-- The remarks of a computation, and its value or the fault that ended it. -/
structure Traced (α : Type) where
  remarks : List Remark
  outcome : Except Fault α

namespace Traced

def pure {α : Type} (value : α) : Traced α :=
  ⟨[], .ok value⟩

def bind {α β : Type} (first : Traced α) (next : α → Traced β) : Traced β :=
  match first.outcome with
  | .ok value => ⟨first.remarks ++ (next value).remarks, (next value).outcome⟩
  | .error fault => ⟨first.remarks, .error fault⟩

instance : Monad Traced where
  pure := Traced.pure
  bind := Traced.bind

instance : MonadLift (Except Fault) Traced where
  monadLift outcome := ⟨[], outcome⟩

def fail {α : Type} (fault : Fault) : Traced α :=
  ⟨[], .error fault⟩

def remark (r : Remark) : Traced Unit :=
  ⟨[r], .ok ()⟩

theorem id_map {α : Type} (x : Traced α) : id <$> x = x := by
  rcases x with ⟨remarks, value | value⟩ <;>
    simp [Functor.map, Traced.bind, Traced.pure]

theorem pure_bind {α β : Type} (value : α) (next : α → Traced β) :
    (Pure.pure value : Traced α) >>= next = next value := by
  simp [Bind.bind, Pure.pure, Traced.bind, Traced.pure]

theorem bind_assoc {α β γ : Type} (x : Traced α) (f : α → Traced β) (g : β → Traced γ) :
    x >>= f >>= g = x >>= fun value => f value >>= g := by
  rcases x with ⟨remarks, value | value⟩
  · rfl
  · simp only [Bind.bind, Traced.bind]
    cases (f value).outcome <;> simp

instance : LawfulMonad Traced :=
  LawfulMonad.mk' Traced id_map pure_bind bind_assoc

def collect {α β : Type} (step : α → Traced (Option β)) : List α → Traced (List β)
  | [] => Traced.pure []
  | x :: xs => do
    let kept ← step x
    let more ← collect step xs
    return kept.toList ++ more

end Traced
end ApiCatalog
