import Formula.Number.Numeral

/-!
# Bindings

A variable is bound on the command line by its name, an equals sign and a number. Blanks around the name and around the
number do not count.
-/

namespace Formula

/-- A variable and its number. -/
structure Binding where
  name : String
  value : Float
deriving DecidableEq

/-- What is wrong with the text of a binding. -/
inductive BindingFault where
  /-- There is no equals sign, or no name before it. -/
  | shape (text : String)
  /-- What stands behind the equals sign is no number. -/
  | value (name text : String)
deriving DecidableEq

def BindingFault.message : BindingFault → String
  | .shape text => s!"Expected NAME=VALUE, got '{text}'"
  | .value name text => s!"Variable {name} must be a number, got '{text}'"

/-- Reads a binding. The first equals sign ends the name. -/
def Binding.read (text : String) : Except BindingFault Binding :=
  let name := Text.trim (text.toList.takeWhile (· != '='))
  match text.toList.dropWhile (· != '=') with
  | [] => .error (.shape text)
  | _ :: value =>
    if name.isEmpty then .error (.shape text)
    else
      match Numeral.toFloat? value with
      | some number => .ok ⟨String.ofList name, number⟩
      | none => .error (.value (String.ofList name) (String.ofList value))

end Formula
