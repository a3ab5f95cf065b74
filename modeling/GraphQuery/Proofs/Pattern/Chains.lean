import GraphQuery.Proofs.Pattern.Modifiers
import Mathlib.Data.List.Chain

/-! Chains that grow from a relationship. A call adds a hop behind the last one, or changes the name, the length
or the properties of the last one. So each hop is what it was added as, changed by the calls made before the next
hop was added. -/
namespace GraphQuery

/-- A relationship, or the chain that it has become. -/
inductive Path where
  | relationship (r : Relationship)
  | chain (c : Chain)

/-- A hop to add: its direction, the node it leads to, its types. -/
structure Extension where
  direction : Direction
  node : Node
  types : List String

inductive PathCall where
  | extend (hop : Extension)
  | modify (m : Modifier)

def PathCall.extension? : PathCall → Option Extension
  | extend hop => some hop
  | modify _ => none

/-- The hops that are added. -/
def PathCall.extensions (calls : List PathCall) : List Extension := calls.filterMap extension?

theorem PathCall.extensions_extend (hop : Extension) (calls : List PathCall) :
    extensions (extend hop :: calls) = hop :: extensions calls := List.filterMap_cons_some rfl

theorem PathCall.extensions_modify (m : Modifier) (calls : List PathCall) :
    extensions (modify m :: calls) = extensions calls := List.filterMap_cons_none rfl

/-- The modifiers that come before the first hop is added, and those behind each added hop. -/
def PathCall.sections : List PathCall → List Modifier × List (Extension × List Modifier)
  | [] => ([], [])
  | extend hop :: calls => ([], (hop, (sections calls).1) :: (sections calls).2)
  | modify m :: calls => (m :: (sections calls).1, (sections calls).2)

namespace Chain

/-- Make a call that concerns the length. -/
def bound (c : Chain) : LengthCall → Chain
  | .between a b => c.setLength (some a) (some b)
  | .atLeast a => c.setLength (some a) none
  | .atMost b => c.setLength none (some b)
  | .unbounded => c.unbounded

def modify (c : Chain) : Modifier → Except ArgumentError Chain
  | .named name => c.named name
  | .length call => .ok (c.bound call)
  | .properties arguments => c.setProperties arguments

theorem modify_eq (c : Chain) (m : Modifier) : c.modify m = (c.last.detail.modify m).map c.withDetail := by
  cases m with
  | named name => rfl
  | length call => cases call <;> rfl
  | properties arguments => rfl

end Chain

/-- The hop that an extension adds behind a relationship. -/
def Extension.behind (hop : Extension) (r : Relationship) : Relationship :=
  .new r.right hop.direction hop.node hop.types

namespace Path

def earlier : Path → List Relationship
  | relationship _ => []
  | chain c => c.earlier

def last : Path → Relationship
  | relationship r => r
  | chain c => c.last

def hops : Path → List Relationship
  | relationship r => [r]
  | chain c => c.relationships

def withDetail : Path → RelationshipDetail → Path
  | relationship r, d => relationship (r.withDetail d)
  | chain c, d => chain (c.withDetail d)

def call : Path → PathCall → Except ArgumentError Path
  | relationship r, .extend hop => .ok (chain ((Chain.ofRelationship r).append hop.direction hop.node hop.types))
  | chain c, .extend hop => .ok (chain (c.append hop.direction hop.node hop.types))
  | relationship r, .modify m => (r.modify m).map relationship
  | chain c, .modify m => (c.modify m).map chain

/-- Make a call. A call that fails leaves the path as it is. -/
def attempt (p : Path) (c : PathCall) : Path :=
  match p.call c with
  | .ok p => p
  | .error _ => p

def attemptAll (p : Path) (calls : List PathCall) : Path := calls.foldl attempt p

section Step

variable (p : Path)

theorem hops_eq : p.hops = p.earlier ++ [p.last] := by
  cases p <;> rfl

theorem hops_withDetail (d : RelationshipDetail) : (p.withDetail d).hops = p.earlier ++ [p.last.withDetail d] := by
  cases p <;> rfl

/-- A modifier concerns the last hop only. -/
theorem call_modify (m : Modifier) : p.call (.modify m) = (p.last.detail.modify m).map p.withDetail := by
  cases p with
  | relationship r =>
    change (r.modify m).map relationship = (r.detail.modify m).map _
    rw [r.modify_eq]
    cases r.detail.modify m <;> rfl
  | chain c =>
    change (c.modify m).map chain = (c.last.detail.modify m).map _
    rw [c.modify_eq]
    cases c.last.detail.modify m <;> rfl

theorem earlier_attempt_modify (m : Modifier) : (p.attempt (.modify m)).earlier = p.earlier := by
  rw [attempt, call_modify]
  cases p.last.detail.modify m with
  | ok d => cases p <;> rfl
  | error e => rfl

theorem last_attempt_modify (m : Modifier) : (p.attempt (.modify m)).last = p.last.attempt m := by
  rw [attempt, call_modify, Relationship.attempt_eq, RelationshipDetail.attempt]
  cases p.last.detail.modify m with
  | ok d => cases p <;> rfl
  | error e => rfl

theorem earlier_attempt_extend (hop : Extension) : (p.attempt (.extend hop)).earlier = p.hops := by
  cases p <;> rfl

theorem last_attempt_extend (hop : Extension) : (p.attempt (.extend hop)).last = hop.behind p.last := by
  cases p <;> rfl

theorem call_eq_error_iff {c : PathCall} {e : ArgumentError} :
    p.call c = .error e ↔ ∃ m, c = .modify m ∧ m.Refused e := by
  cases c with
  | extend hop => cases p <;> exact ⟨nofun, nofun⟩
  | modify m =>
    rw [call_modify, Outcome.map_eq_error_iff, RelationshipDetail.modify_eq_error_iff]
    constructor
    · intro h
      exact ⟨m, rfl, h⟩
    · rintro ⟨_, ⟨⟩, h⟩
      exact h

end Step

/-- The hops that some calls make of a relationship. -/
def trail (r : Relationship) : List PathCall → List Relationship
  | [] => [r]
  | .extend hop :: calls => r :: trail (hop.behind r) calls
  | .modify m :: calls => trail (r.attempt m) calls

/-- A run of calls leaves the hops before the last one alone. -/
theorem hops_attemptAll (p : Path) (calls : List PathCall) :
    (p.attemptAll calls).hops = p.earlier ++ trail p.last calls := by
  induction calls generalizing p with
  | nil => exact p.hops_eq
  | cons c calls ih =>
    rw [attemptAll, List.foldl_cons, ← attemptAll, ih]
    cases c with
    | extend hop =>
      rw [earlier_attempt_extend, last_attempt_extend, hops_eq, List.append_assoc]
      rfl
    | modify m =>
      rw [earlier_attempt_modify, last_attempt_modify]
      rfl

/-- What the calls tell about the hops: each begins where the one before it ends and leads to the node it was
added with, its direction and its types are those it was added with, and all the rest of it comes from the
modifiers that were called while it was the last. -/
structure Grown (r : Relationship) (calls : List PathCall) (hops : List Relationship) : Prop where
  nonempty : hops ≠ []
  count : hops.length = 1 + (PathCall.extensions calls).length
  first : hops.head?.map (·.left) = some r.left
  linked : hops.IsChain fun a b => b.left = a.right
  rights : hops.map (·.right) = r.right :: (PathCall.extensions calls).map (·.node)
  kinds : hops.map (fun h => (h.detail.direction, h.detail.types)) =
    (r.detail.direction, r.detail.types) ::
      (PathCall.extensions calls).map fun hop => (hop.direction, hop.types)
  details : hops.map (·.detail) = r.detail.attemptAll (PathCall.sections calls).1 ::
    (PathCall.sections calls).2.map fun s => (RelationshipDetail.new s.1.direction s.1.types).attemptAll s.2

theorem Grown.nil (r : Relationship) : Grown r [] [r] where
  nonempty := List.cons_ne_nil r []
  count := rfl
  first := rfl
  linked := List.isChain_singleton r
  rights := rfl
  kinds := rfl
  details := rfl

theorem Grown.extend {r : Relationship} {hop : Extension} {calls : List PathCall} {hops : List Relationship}
    (h : Grown (hop.behind r) calls hops) : Grown r (.extend hop :: calls) (r :: hops) where
  nonempty := List.cons_ne_nil r hops
  count := by
    rw [List.length_cons, h.count, PathCall.extensions_extend, List.length_cons, Nat.add_assoc]
  first := rfl
  linked := by
    refine List.isChain_cons.mpr ⟨fun s hs => ?_, h.linked⟩
    have hfirst := h.first
    rw [Option.mem_def.mp hs] at hfirst
    exact Option.some.inj hfirst
  rights := by
    rw [List.map_cons, h.rights, PathCall.extensions_extend]
    rfl
  kinds := by
    rw [List.map_cons, h.kinds, PathCall.extensions_extend]
    rfl
  details := by
    rw [List.map_cons, h.details]
    rfl

theorem Grown.modify {r : Relationship} {m : Modifier} {calls : List PathCall} {hops : List Relationship}
    (h : Grown (r.attempt m) calls hops) : Grown r (.modify m :: calls) hops := by
  rw [Relationship.attempt_eq] at h
  obtain ⟨hnonempty, hcount, hfirst, hlinked, hrights, hkinds, hdetails⟩ := h
  rw [Relationship.withDetail, RelationshipDetail.direction_attempt, RelationshipDetail.types_attempt] at hkinds
  rw [← PathCall.extensions_modify m] at hcount hrights hkinds
  exact ⟨hnonempty, hcount, hfirst, hlinked, hrights, hkinds, hdetails⟩

theorem trail_grown (r : Relationship) (calls : List PathCall) : Grown r calls (trail r calls) := by
  induction calls generalizing r with
  | nil => exact .nil r
  | cons c calls ih =>
    cases c with
    | extend hop => exact (ih _).extend
    | modify m => exact (ih _).modify

theorem grown_of_hops_eq {p : Path} {r : Relationship} (hp : p.hops = [r]) (calls : List PathCall) :
    Grown r calls (p.attemptAll calls).hops := by
  rw [hops_eq, ← List.nil_append [r]] at hp
  obtain ⟨hearlier, hlast⟩ := List.append_inj' hp rfl
  rw [hops_attemptAll, hearlier, List.singleton_inj.mp hlast]
  exact trail_grown r calls

/-- Whatever calls are made from a relationship on, the hops are those that the calls tell. An accepted modifier
sets its own part of the last hop. Only a modifier can be refused, and then nothing has changed. -/
theorem attemptAll_grown {p : Path} {r : Relationship} (hp : p.hops = [r]) (calls : List PathCall) :
    Grown r calls (p.attemptAll calls).hops ∧
      (∀ m q, (p.attemptAll calls).call (.modify m) = .ok q → ∃ earlier last d,
        (p.attemptAll calls).hops = earlier ++ [last] ∧ q.hops = earlier ++ [⟨last.left, d, last.right⟩] ∧
        m.Changes last.detail d) ∧
      ∀ c e, ((p.attemptAll calls).call c = .error e ↔ ∃ m, c = .modify m ∧ m.Refused e) ∧
        ((p.attemptAll calls).call c = .error e → p.attemptAll (calls ++ [c]) = p.attemptAll calls) := by
  refine ⟨grown_of_hops_eq hp calls, fun m q h => ?_, fun c e => ⟨call_eq_error_iff _, fun h => ?_⟩⟩
  · rw [call_modify] at h
    obtain ⟨d, hd, rfl⟩ := Outcome.map_eq_ok_iff.mp h
    exact ⟨_, _, d, hops_eq _, hops_withDetail _ d, RelationshipDetail.modify_eq_ok_iff.mp hd⟩
  · rw [attemptAll, List.foldl_concat, ← attemptAll, attempt, h]

/-- A second hop, with a modifier before it and a name behind it that is refused. -/
theorem attemptAll_grown_two_hops :
    ((chain (.ofRelationship (.new .any .leftToRight .any ["KNOWS"]))).attemptAll
      [.modify (.length (.atLeast 2)), .extend ⟨.rightToLeft, .any, []⟩, .modify (.named "")]).hops.length = 2 :=
  (attemptAll_grown (r := .new .any .leftToRight .any ["KNOWS"]) rfl _).1.count

end Path
end GraphQuery
