import GraphQuery.Error

/-! Names for parameters that have none: a stem and a running number. Names already taken are
passed over. -/
namespace GraphQuery

structure NameSource where
  stem : String
  counter : Nat
  taken : List String
  deriving DecidableEq, Repr

namespace NameSource

def defaultStem : String := "__p"

def new (stem : String) : NameSource := ⟨stem, 0, []⟩

def reserve (s : NameSource) (name : String) : NameSource := { s with taken := name :: s.taken }

def reserveAll (s : NameSource) (names : List String) : NameSource := names.foldl reserve s

def nameAt (s : NameSource) (index : Nat) : String := s.stem ++ toString index

/-- The first of the indices from `index` on whose name is free. Among one more indices than
there are taken names one is free, so `tries` starts at the number of taken names. -/
def freeFrom (s : NameSource) (index : Nat) : Nat → Nat
  | 0 => index
  | tries + 1 => if s.nameAt index ∈ s.taken then freeFrom s (index + 1) tries else index

/-- The next name, which is then taken. -/
def next (s : NameSource) : String × NameSource :=
  let index := s.freeFrom s.counter s.taken.length
  (s.nameAt index, ⟨s.stem, index + 1, s.nameAt index :: s.taken⟩)

def record (name : String) : Record := ⟨.trace, "Build anon parameter: " ++ name⟩

@[simp] theorem taken_reserve (s : NameSource) (n : String) : (s.reserve n).taken = n :: s.taken := rfl

example : ((new "p").reserveAll ["p0", "p2"]).next.1 = "p1" := by decide
example : ((new "p").reserveAll ["p0", "p2"]).next.2.next.1 = "p3" := by decide

end NameSource
end GraphQuery
