import EntitySearch.Number.Integer

/-!
# Places in a payload

A `Location` says how to get from the root of a payload to a value in it. Its text is `$` for the root;
otherwise names are joined by points and indices stand in brackets.
-/

namespace EntitySearch

inductive Step
  | member (name : String)
  | item (index : Nat)
deriving DecidableEq

structure Location where
  steps : List Step
deriving DecidableEq

namespace Location

def root : Location := ⟨[]⟩

def member (l : Location) (name : String) : Location := ⟨l.steps ++ [.member name]⟩

def item (l : Location) (index : Nat) : Location := ⟨l.steps ++ [.item index]⟩

def isRoot (l : Location) : Bool := l.steps.isEmpty

/-- A step as it is written after another one. -/
def laterStep : Step → List Char
  | .member name => '.' :: name.toList
  | .item index => '[' :: natChars index ++ [']']

/-- A step as it is written at the start. -/
def firstStep : Step → List Char
  | .member name => name.toList
  | step => laterStep step

def chars : Location → List Char
  | ⟨[]⟩ => ['$']
  | ⟨first :: later⟩ => firstStep first ++ later.flatMap laterStep

def text (l : Location) : String := .ofList l.chars

end Location

end EntitySearch
