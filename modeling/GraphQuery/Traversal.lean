import GraphQuery.Error
import GraphQuery.SyntaxTree

/-! Depth-first traversal. A visitor may refuse a node, and then nothing below that node is
visited; a node that it accepts is entered, its children are visited, and it is left. The open
nodes are kept on a stack, and only the innermost of them can be left. -/
namespace GraphQuery

/-- A place in a tree: the numbers of the children on the way to it, the last one first. Two
occurrences of equal trees are different places. -/
structure Place where
  path : List Nat
  tree : SyntaxTree

namespace Place

def kind (p : Place) : String := p.tree.construct.kind

/-- The same occurrence. -/
def isSame (p q : Place) : Bool := p.path == q.path && p.kind == q.kind

end Place

/-- Callbacks on a state `σ`. They get the place and the open places around it, innermost first. -/
structure Visitor (σ : Type) where
  accept : Place → List Place → σ → Bool × σ
  enter : Place → List Place → σ → σ
  leave : Place → List Place → σ → σ
  afterLeave : Place → List Place → σ → σ

namespace Visitor

/-- A visitor that accepts every node and changes nothing. -/
def idle (σ : Type) : Visitor σ where
  accept _ _ s := (true, s)
  enter _ _ s := s
  leave _ _ s := s
  afterLeave _ _ s := s

end Visitor

/-- The open places, innermost first, the errors so far, and the state of the visitor. -/
structure Traversal (σ : Type) where
  stack : List Place
  errors : List DispatchError
  state : σ

namespace Traversal

variable {σ : Type}

def start (s : σ) : Traversal σ := ⟨[], [], s⟩

def depth (t : Traversal σ) : Nat := t.stack.length

def enter (v : Visitor σ) (p : Place) (t : Traversal σ) : Traversal σ :=
  { t with stack := p :: t.stack, state := v.enter p t.stack t.state }

/-- The error of leaving a place that is not the innermost open one. -/
def imbalance (p : Place) (stack : List Place) : DispatchError :=
  .imbalance ((stack.head?.map Place.kind).getD "nothing") p.kind

/-- Leave a place. Unless it is the innermost open one, the stack stays as it is, the visitor's
`leave` is not called and an error is noted. -/
def leave (v : Visitor σ) (p : Place) (t : Traversal σ) : Traversal σ :=
  match t.stack with
  | top :: rest =>
    if top.isSame p then ⟨rest, t.errors, v.afterLeave p rest (v.leave p rest t.state)⟩
    else { t with errors := t.errors ++ [imbalance p t.stack], state := v.afterLeave p t.stack t.state }
  | [] => { t with errors := t.errors ++ [imbalance p []], state := v.afterLeave p [] t.state }

mutual

/-- Visit the tree at a path. -/
def visit (v : Visitor σ) (path : List Nat) (tree : SyntaxTree) (t : Traversal σ) : Traversal σ :=
  match tree with
  | .branch c children =>
    let place : Place := ⟨path, .branch c children⟩
    match v.accept place t.stack t.state with
    | (false, s) => { t with state := s }
    | (true, s) => (visitAll v path 0 children ({ t with state := s }.enter v place)).leave v place
termination_by structural tree

/-- Visit the children of a path, numbered from `index` on. -/
def visitAll (v : Visitor σ) (path : List Nat) (index : Nat) (trees : List SyntaxTree)
    (t : Traversal σ) : Traversal σ :=
  match trees with
  | [] => t
  | tree :: rest => visitAll v path (index + 1) rest (visit v (index :: path) tree t)
termination_by structural trees

end

/-- The verdict at the end: the first error, or else that nodes are still open. -/
def finish (t : Traversal σ) : Except DispatchError Unit :=
  match t.errors with
  | e :: _ => .error e
  | [] => if t.stack.isEmpty then .ok () else .error (.unclosed t.stack.length)

/-- The records of the errors; nodes still open are reported only at the end. -/
def record (e : DispatchError) : Record := ⟨.error, e.message⟩

/-- The record that finishing adds. -/
def finishRecords (t : Traversal σ) : List Record :=
  if t.errors.isEmpty && !t.stack.isEmpty then [record (.unclosed t.stack.length)] else []

/-- Visit a whole tree from its root. -/
def ofTree (v : Visitor σ) (tree : SyntaxTree) (s : σ) : Traversal σ := visit v [] tree (start s)

end Traversal
end GraphQuery
