import AgentStack.FileTree.Operations

/-! What the package raises. -/
namespace AgentStack.Core

open FileTree

inductive FailureKind
  | core
  | renderer
  | runtime
  | lifecycle
  | os
  | key
  | assertion
  deriving DecidableEq, Repr

structure Failure where
  kind : FailureKind
  code : String
  message : String
  details : List (String × String) := []
  deriving DecidableEq, Repr

/-- The package's own failures derive from `ValueError`; the built-in errors do not. -/
def Failure.isValueError (f : Failure) : Bool :=
  match f.kind with
  | .core | .renderer | .runtime | .lifecycle => true
  | .os | .key | .assertion => false

def osErrorCode : OsErrorKind → String
  | .notFound => "ENOENT"
  | .fileExists => "EEXIST"
  | .notDirectory => "ENOTDIR"
  | .isDirectory => "EISDIR"
  | .notEmpty => "ENOTEMPTY"
  | .invalid => "EINVAL"
  | .permission => "EACCES"

def joinPath (p : Path) : String := "/".intercalate p

instance : OfOsError Failure where
  ofOsError e := ⟨.os, osErrorCode e.kind, "", [("path", joinPath e.path)]⟩

def keyError (field : String) : Failure := ⟨.key, "KeyError", field, []⟩

def assertionError : Failure := ⟨.assertion, "AssertionError", "", []⟩

variable {α β : Type}

@[simp] theorem bind_ok_eq (a : α) (f : α → Except Failure β) : (.ok a >>= f) = f a := rfl

@[simp] theorem bind_error_eq (e : Failure) (f : α → Except Failure β) :
    ((.error e : Except Failure α) >>= f) = .error e := rfl

@[simp] theorem pure_eq_ok (a : α) : (pure a : Except Failure α) = .ok a := rfl

theorem bind_eq_ok {x : Except Failure α} {f : α → Except Failure β} {b : β}
    (h : (x >>= f) = .ok b) : ∃ a, x = .ok a ∧ f a = .ok b := by
  cases x with
  | ok a => exact ⟨a, rfl, h⟩
  | error e => cases h

theorem eq_ok_of_toOption {x : Except Failure α} {a : α} (h : x.toOption = some a) :
    x = .ok a := by
  cases x with
  | error e => cases h
  | ok b => rw [Option.some.inj h]

theorem exists_of_isOk {x : Except Failure α} (h : x.isOk = true) : ∃ a, x = .ok a := by
  cases x with
  | error e => cases h
  | ok a => exact ⟨a, rfl⟩

end AgentStack.Core
