namespace AccessRules

/-- A place in a rule tree: the keys that lead to it from the top-level key, the
outermost one first. -/
structure Location where
  keys : List String
deriving DecidableEq, Repr

namespace Location

def topKey : String := "rules"

def top : Location := ⟨[]⟩

def child (location : Location) (key : String) : Location := ⟨location.keys ++ [key]⟩

def depth (location : Location) : Nat := location.keys.length

@[simp] theorem depth_child (location : Location) (key : String) :
    (location.child key).depth = location.depth + 1 := by
  simp [child, depth]

def text (location : Location) : String :=
  location.keys.foldl (fun path key => path ++ "/" ++ key) ("/" ++ topKey)

end Location

end AccessRules
