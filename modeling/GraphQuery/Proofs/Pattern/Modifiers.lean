import GraphQuery.Pattern
import GraphQuery.Proofs.Outcome
import Mathlib.Data.List.Induction

/-! Calls that change one relationship: its name, its length, its properties. Each changes its own part of the
relationship only, and a bound of the length holds until it is set again or any length is allowed. -/
namespace GraphQuery

/-- A call that sets bounds of the length, or takes both away. -/
inductive LengthCall where
  | between (minimum maximum : UInt32)
  | atLeast (minimum : UInt32)
  | atMost (maximum : UInt32)
  | unbounded
  deriving DecidableEq

namespace LengthCall

def minimum? : LengthCall → Option UInt32
  | between a _ | atLeast a => some a
  | atMost _ | unbounded => none

def maximum? : LengthCall → Option UInt32
  | between _ b | atMost b => some b
  | atLeast _ | unbounded => none

/-- The range after a call. -/
def apply (r : LengthRange) : LengthCall → LengthRange
  | between a b => ⟨some a, some b⟩
  | atLeast a => ⟨some a, r.maximum⟩
  | atMost b => ⟨r.minimum, some b⟩
  | unbounded => ⟨none, none⟩

/-- The calls since the last one that took the bounds away, the latest first. -/
def sinceUnbounded (calls : List LengthCall) : List LengthCall :=
  calls.reverse.takeWhile fun c => c != unbounded

/-- The range that some calls leave behind where there was none: of each bound the latest that was set since
the bounds were last taken away. -/
def range? (calls : List LengthCall) : Option LengthRange :=
  if calls = [] then none
  else some ⟨(sinceUnbounded calls).findSome? minimum?, (sinceUnbounded calls).findSome? maximum?⟩

theorem sinceUnbounded_concat_unbounded (calls : List LengthCall) : sinceUnbounded (calls ++ [unbounded]) = [] := by
  rw [sinceUnbounded, List.reverse_concat]
  exact List.takeWhile_cons_of_neg (by decide)

theorem sinceUnbounded_concat {calls : List LengthCall} {c : LengthCall} (h : c ≠ unbounded) :
    sinceUnbounded (calls ++ [c]) = c :: sinceUnbounded calls := by
  rw [sinceUnbounded, List.reverse_concat]
  exact List.takeWhile_cons_of_pos (bne_iff_ne.mpr h)

theorem getD_range? (calls : List LengthCall) : (range? calls).getD .unbounded =
    ⟨(sinceUnbounded calls).findSome? minimum?, (sinceUnbounded calls).findSome? maximum?⟩ := by
  cases calls with
  | nil => rfl
  | cons c calls => rw [range?, if_neg (List.cons_ne_nil _ _), Option.getD_some]

theorem range?_concat (calls : List LengthCall) (c : LengthCall) :
    range? (calls ++ [c]) = some (c.apply ((range? calls).getD .unbounded)) := by
  rw [range?, if_neg (List.append_ne_nil_of_right_ne_nil _ (List.cons_ne_nil _ _)), getD_range?]
  by_cases hc : c = unbounded
  · rw [hc, sinceUnbounded_concat_unbounded]
    rfl
  · rw [sinceUnbounded_concat hc]
    cases c with
    | between a b => rfl
    | atLeast a => rfl
    | atMost b => rfl
    | unbounded => exact absurd rfl hc

end LengthCall

/-- A call that concerns one relationship. -/
inductive Modifier where
  | named (name : String)
  | length (call : LengthCall)
  | properties (arguments : List MapArgument)

namespace Modifier

def lengthCall? : Modifier → Option LengthCall
  | length call => some call
  | named _ | properties _ => none

/-- An accepted modifier sets its own part and leaves the rest as it was. -/
inductive Changes : Modifier → RelationshipDetail → RelationshipDetail → Prop
  | named {name : String} {n : Identifier} {d : RelationshipDetail} (valid : Identifier.symbolic name = .ok n) :
      Changes (.named name) d { d with name := some n }
  | length (call : LengthCall) (d : RelationshipDetail) :
      Changes (.length call) d { d with length := some (call.apply (d.length.getD .unbounded)) }
  | properties {arguments : List MapArgument} {map : Option MapExpression} {d : RelationshipDetail}
      (valid : MapExpression.properties arguments = .ok map) :
      Changes (.properties arguments) d { d with properties := map }

/-- Only a name or properties can be refused, whatever the relationship is. -/
inductive Refused : Modifier → ArgumentError → Prop
  | named {name : String} {e : ArgumentError} (invalid : Identifier.symbolic name = .error e) :
      Refused (.named name) e
  | properties {arguments : List MapArgument} {e : ArgumentError}
      (invalid : MapExpression.properties arguments = .error e) : Refused (.properties arguments) e

theorem Changes.direction_eq {m : Modifier} {d d' : RelationshipDetail} (h : m.Changes d d') :
    d'.direction = d.direction := by
  cases h <;> rfl

theorem Changes.types_eq {m : Modifier} {d d' : RelationshipDetail} (h : m.Changes d d') : d'.types = d.types := by
  cases h <;> rfl

end Modifier

namespace RelationshipDetail

/-- Make a call that concerns the length. -/
def bound (d : RelationshipDetail) : LengthCall → RelationshipDetail
  | .between a b => d.setLength (some a) (some b)
  | .atLeast a => d.setLength (some a) none
  | .atMost b => d.setLength none (some b)
  | .unbounded => d.unbounded

def modify (d : RelationshipDetail) : Modifier → Except ArgumentError RelationshipDetail
  | .named name => d.named name
  | .length call => .ok (d.bound call)
  | .properties arguments => d.setProperties arguments

/-- Make a call. A call that fails leaves everything as it is. -/
def attempt (d : RelationshipDetail) (m : Modifier) : RelationshipDetail :=
  match d.modify m with
  | .ok d => d
  | .error _ => d

def attemptAll (d : RelationshipDetail) (ms : List Modifier) : RelationshipDetail := ms.foldl attempt d

theorem bound_eq (d : RelationshipDetail) (call : LengthCall) :
    d.bound call = { d with length := some (call.apply (d.length.getD .unbounded)) } := by
  cases call <;> rfl

theorem modify_eq_ok_iff {d d' : RelationshipDetail} {m : Modifier} : d.modify m = .ok d' ↔ m.Changes d d' := by
  constructor
  · intro h
    cases m with
    | named name =>
      obtain ⟨n, hn, rfl⟩ := Outcome.map_eq_ok_iff.mp h
      exact .named hn
    | length call =>
      obtain rfl := Except.ok.inj h
      rw [bound_eq]
      exact .length call d
    | properties arguments =>
      obtain ⟨map, hmap, rfl⟩ := Outcome.map_eq_ok_iff.mp h
      exact .properties hmap
  · intro h
    cases h with
    | named hn => exact Outcome.map_eq_ok_iff.mpr ⟨_, hn, rfl⟩
    | length call => rw [modify, bound_eq]
    | properties hmap => exact Outcome.map_eq_ok_iff.mpr ⟨_, hmap, rfl⟩

theorem modify_eq_error_iff {d : RelationshipDetail} {m : Modifier} {e : ArgumentError} :
    d.modify m = .error e ↔ m.Refused e := by
  constructor
  · intro h
    cases m with
    | named name => exact .named (Outcome.map_eq_error_iff.mp h)
    | length call => cases h
    | properties arguments => exact .properties (Outcome.map_eq_error_iff.mp h)
  · intro h
    cases h with
    | named hn => exact Outcome.map_eq_error_iff.mpr hn
    | properties hmap => exact Outcome.map_eq_error_iff.mpr hmap

/-- An attempt is accepted or leaves everything as it is. -/
theorem attempt_cases (d : RelationshipDetail) (m : Modifier) :
    m.Changes d (d.attempt m) ∨ (∃ e, m.Refused e) ∧ d.attempt m = d := by
  unfold attempt
  split
  · next h => exact .inl (modify_eq_ok_iff.mp h)
  · next h => exact .inr ⟨⟨_, modify_eq_error_iff.mp h⟩, rfl⟩

theorem direction_attempt (d : RelationshipDetail) (m : Modifier) : (d.attempt m).direction = d.direction := by
  obtain h | ⟨-, h⟩ := d.attempt_cases m
  · exact h.direction_eq
  · rw [h]

theorem types_attempt (d : RelationshipDetail) (m : Modifier) : (d.attempt m).types = d.types := by
  obtain h | ⟨-, h⟩ := d.attempt_cases m
  · exact h.types_eq
  · rw [h]

theorem length_attempt (d : RelationshipDetail) (m : Modifier) : (d.attempt m).length =
    match m.lengthCall? with
    | some call => some (call.apply (d.length.getD .unbounded))
    | none => d.length := by
  obtain h | ⟨⟨e, he⟩, h⟩ := d.attempt_cases m
  · generalize d.attempt m = d' at h
    cases h <;> rfl
  · rw [h]
    cases he <;> rfl

/-- The calls that concern the length decide the range, whatever other calls stand between them. -/
theorem length_attemptAll {d : RelationshipDetail} (h : d.length = none) (ms : List Modifier) :
    (d.attemptAll ms).length = LengthCall.range? (ms.filterMap Modifier.lengthCall?) := by
  induction ms using List.reverseRecOn with
  | nil => exact h
  | append_singleton ms m ih =>
    rw [attemptAll, List.foldl_concat, ← attemptAll, length_attempt, ih, List.filterMap_append]
    cases hm : m.lengthCall? with
    | some call => rw [List.filterMap_cons_some hm, List.filterMap_nil, LengthCall.range?_concat]
    | none => rw [List.filterMap_cons_none hm, List.filterMap_nil, List.append_nil]

end RelationshipDetail

namespace Relationship

/-- Make a call that concerns the length. -/
def bound (r : Relationship) : LengthCall → Relationship
  | .between a b => r.setLength (some a) (some b)
  | .atLeast a => r.setLength (some a) none
  | .atMost b => r.setLength none (some b)
  | .unbounded => r.unbounded

def modify (r : Relationship) : Modifier → Except ArgumentError Relationship
  | .named name => r.named name
  | .length call => .ok (r.bound call)
  | .properties arguments => r.setProperties arguments

/-- Make a call. A call that fails leaves the relationship as it is. -/
def attempt (r : Relationship) (m : Modifier) : Relationship :=
  match r.modify m with
  | .ok r => r
  | .error _ => r

def attemptAll (r : Relationship) (ms : List Modifier) : Relationship := ms.foldl attempt r

theorem modify_eq (r : Relationship) (m : Modifier) : r.modify m = (r.detail.modify m).map r.withDetail := by
  cases m with
  | named name => rfl
  | length call => cases call <;> rfl
  | properties arguments => rfl

theorem attempt_eq (r : Relationship) (m : Modifier) : r.attempt m = r.withDetail (r.detail.attempt m) := by
  rw [attempt, modify_eq, RelationshipDetail.attempt]
  cases r.detail.modify m <;> rfl

theorem attemptAll_eq (r : Relationship) (ms : List Modifier) :
    r.attemptAll ms = r.withDetail (r.detail.attemptAll ms) := by
  induction ms generalizing r with
  | nil => rfl
  | cons m ms ih =>
    rw [attemptAll, List.foldl_cons, ← attemptAll, ih, attempt_eq]
    rfl

end Relationship
end GraphQuery
