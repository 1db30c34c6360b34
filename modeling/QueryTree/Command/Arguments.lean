/-! # Arguments of a command

Switches start with one hyphen and a letter or with two hyphens and a name; all else is plain. One
hyphen may be followed by several letters, and the value of a switch may be attached to it. After
two hyphens alone every argument is plain.

A switch is given at most once.
-/

namespace QueryTree.Command

structure Switch where
  name : String
  letter : Option Char
  hasValue : Bool

structure Arguments where
  plain : List String
  values : List (String × String)
  flags : List String

namespace Arguments

def empty : Arguments := ⟨[], [], []⟩

def addPlain (a : Arguments) (text : String) : Arguments := { a with plain := a.plain ++ [text] }

def addPlains (a : Arguments) (texts : List String) : Arguments :=
  { a with plain := a.plain ++ texts }

def addValue? (a : Arguments) (name value : String) : Option Arguments :=
  if (a.values.lookup name).isSome then none
  else some { a with values := (name, value) :: a.values }

def addFlag? (a : Arguments) (name : String) : Option Arguments :=
  if name ∈ a.flags then none else some { a with flags := name :: a.flags }

end Arguments

/-- The value of a switch may not look like a switch itself. A single hyphen does not. -/
def looksLikeSwitch (text : String) : Bool :=
  match text.toList with
  | '-' :: _ :: _ => true
  | _ => false

/-- Arguments read so far, with the name of a switch whose value has still to come. -/
structure Pending where
  arguments : Arguments
  awaits : Option String

def readLetters (switches : List Switch) (a : Arguments) : List Char → Option Pending
  | [] => some ⟨a, none⟩
  | c :: rest =>
    match switches.find? (·.letter = some c) with
    | none => none
    | some s =>
      if s.hasValue then
        match rest with
        | [] => some ⟨a, some s.name⟩
        | '=' :: value => (a.addValue? s.name (String.ofList value)).map (⟨·, none⟩)
        | value => (a.addValue? s.name (String.ofList value)).map (⟨·, none⟩)
      else
        match a.addFlag? s.name with
        | some a => readLetters switches a rest
        | none => none

def readName (switches : List Switch) (a : Arguments) (text : List Char) : Option Pending :=
  let name := text.takeWhile (· ≠ '=')
  match switches.find? (·.name = String.ofList name) with
  | none => none
  | some s =>
    match s.hasValue, text.drop name.length with
    | true, [] => some ⟨a, some s.name⟩
    | true, _ :: value => (a.addValue? s.name (String.ofList value)).map (⟨·, none⟩)
    | false, [] => (a.addFlag? s.name).map (⟨·, none⟩)
    | false, _ => none

def Arguments.read? (switches : List Switch) : Pending → List String → Option Arguments
  | ⟨a, none⟩, [] => some a
  | ⟨_, some _⟩, [] => none
  | ⟨a, some name⟩, text :: rest =>
    if looksLikeSwitch text then none
    else
      match a.addValue? name text with
      | some a => read? switches ⟨a, none⟩ rest
      | none => none
  | ⟨a, none⟩, text :: rest =>
    match text.toList with
    | ['-', '-'] => some (a.addPlains rest)
    | '-' :: '-' :: name =>
      match readName switches a name with
      | some p => read? switches p rest
      | none => none
    | '-' :: c :: letters =>
      match readLetters switches a (c :: letters) with
      | some p => read? switches p rest
      | none => none
    | _ => read? switches ⟨a.addPlain text, none⟩ rest

def Arguments.ofList? (switches : List Switch) (args : List String) : Option Arguments :=
  Arguments.read? switches ⟨.empty, none⟩ args

end QueryTree.Command
