import GraphQuery.Clause

/-! Clause lists that share their fronts. A list holds its last clause in a cell, with the cells of the
clauses before it behind that one, and the number of its cells. A new clause is a new cell in front of
the others, which stay as they are for every list that holds them. -/
namespace GraphQuery

/-- Cells of clauses, from the last clause back to the first. -/
inductive ClauseCells where
  | none
  | cell (clause : Clause) (previous : ClauseCells)

namespace ClauseCells

def count : ClauseCells → Nat
  | none => 0
  | cell _ previous => previous.count + 1

/-- The clauses of the cells, added one after the other to those collected before. -/
def collect (collected : List Clause) : ClauseCells → List Clause
  | none => collected
  | cell c previous => previous.collect (collected ++ [c])

def clause? : ClauseCells → Option Clause
  | none => .none
  | cell c _ => some c

theorem collect_eq_append (cells : ClauseCells) (collected : List Clause) :
    cells.collect collected = collected ++ cells.collect [] := by
  induction cells generalizing collected with
  | none => exact (List.append_nil _).symm
  | cell c previous ih => rw [collect, ih, collect, ih ([] ++ [c]), List.nil_append, List.append_assoc]

theorem collect_cell (c : Clause) (previous : ClauseCells) :
    (cell c previous).collect [] = c :: previous.collect [] := collect_eq_append previous [c]

theorem length_collect (cells : ClauseCells) : (cells.collect []).length = cells.count := by
  induction cells with
  | none => rfl
  | cell c previous ih => rw [collect_cell, List.length_cons, ih, count]

end ClauseCells

structure ClauseList where
  head : ClauseCells
  len : Nat
  counted : len = head.count

namespace ClauseList

def empty : ClauseList := ⟨.none, 0, rfl⟩

/-- The list with one more clause. -/
def push (l : ClauseList) (c : Clause) : ClauseList where
  head := .cell c l.head
  len := l.len + 1
  counted := by rw [l.counted, ClauseCells.count]

def isEmpty (l : ClauseList) : Bool := l.len == 0

def last? (l : ClauseList) : Option Clause := l.head.clause?

/-- The clauses in their order. They are collected from the last back to the first. -/
def toList (l : ClauseList) : List Clause := (l.head.collect []).reverse

@[simp] theorem toList_push (l : ClauseList) (c : Clause) : (l.push c).toList = l.toList ++ [c] := by
  rw [toList, push, ClauseCells.collect_cell, List.reverse_cons, toList]

theorem len_eq_length (l : ClauseList) : l.len = l.toList.length := by
  rw [toList, List.length_reverse, ClauseCells.length_collect, l.counted]

theorem isEmpty_iff (l : ClauseList) : l.isEmpty = true ↔ l.len = 0 := beq_iff_eq

/-- The cell at the front holds the clause at the end. -/
theorem last?_eq_getLast? (l : ClauseList) : l.last? = l.toList.getLast? := by
  rw [toList, List.getLast?_reverse, last?]
  cases l.head with
  | none => rfl
  | cell c previous => rw [ClauseCells.collect_cell, ClauseCells.clause?, List.head?_cons]

end ClauseList
end GraphQuery
