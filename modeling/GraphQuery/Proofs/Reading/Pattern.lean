import GraphQuery.Proofs.Reading.PatternReader
import GraphQuery.Proofs.Render.Statement

/-! Written patterns read back. Patterns without properties whose nodes have different names are written
by a recursion that depends on nothing else, and the text tells them apart, but for a relationship and the
chain that it makes. -/
namespace GraphQuery

open PatternReading (nameText)

section Text

/-- Chains of the same relationships are the same. -/
theorem Chain.ext_relationships {c d : Chain} (h : c.relationships = d.relationships) : c = d := by
  obtain ⟨earlier, last, linked⟩ := c
  obtain ⟨earlier', last', linked'⟩ := d
  obtain ⟨rfl, hlast⟩ := List.append_inj' h rfl
  obtain rfl : last = last' := List.head_eq_of_cons_eq hlast
  rfl

/-- Hop after hop makes a chain of the relationships, each of which begins where the one before it ends. -/
theorem Chain.foldl_extend {c : Chain} {rs : List Relationship} (h : Relationship.Linked (c.last :: rs)) :
    ∃ d : Chain, rs.foldl (fun e r => e.extend r.detail r.right) (PatternElement.chain c) = .chain d ∧
      d.relationships = c.relationships ++ rs := by
  induction rs generalizing c with
  | nil => exact ⟨c, rfl, (List.append_nil _).symm⟩
  | cons r rs ih =>
    have hleft : r.left = c.last.right := h.1 r rfl
    have hlast : (c.extend r.detail r.right).last = r := by
      change (⟨c.last.right, r.detail, r.right⟩ : Relationship) = r
      rw [← hleft]
    have hlinked : Relationship.Linked ((c.extend r.detail r.right).last :: rs) := by
      rw [hlast]
      exact h.2
    obtain ⟨d, hd, hrelationships⟩ := ih hlinked
    refine ⟨d, hd, ?_⟩
    rw [hrelationships, relationships, hlast, List.append_assoc]
    rfl

def Node.written (n : Node) : String := "(" ++ nameText n.name ++ Printing.labels n.labels ++ ")"

def RelationshipDetail.written (d : RelationshipDetail) : String :=
  d.direction.left ++ "[" ++ nameText d.name ++ typesText d.types ++ lengthText d.length ++ "]"
    ++ d.direction.right

def Relationship.writtenHop (r : Relationship) : String := r.detail.written ++ r.right.written

namespace PatternElement

/-- The left node of the first relationship, and then hop after hop. -/
def writtenRelationships : List Relationship → String
  | [] => ""
  | r :: rs => r.left.written ++ String.join ((r :: rs).map Relationship.writtenHop)

/-- The text of an element without properties. -/
def written : PatternElement → String
  | .node n => n.written
  | .relationship r => writtenRelationships [r]
  | .chain c => writtenRelationships c.relationships

/-- The nodes of an element, each of them once. -/
def nodes : PatternElement → List Node
  | .node n => [n]
  | .relationship r => [r.left, r.right]
  | .chain c => (c.relationships.head?.map Relationship.left).toList ++ c.relationships.map Relationship.right

theorem nodes_chain {c : Chain} {r : Relationship} {rs : List Relationship} (h : c.relationships = r :: rs) :
    (chain c).nodes = r.left :: (r :: rs).map Relationship.right := by
  simp [nodes, h]

/-- The names of the nodes of an element. -/
def nodeNames (e : PatternElement) : List Identifier := e.nodes.flatMap fun n => n.name.toList

/-- The element with a relationship taken for the chain that it makes. -/
def normal : PatternElement → PatternElement
  | .relationship r => .chain (.ofRelationship r)
  | e => e

end PatternElement

namespace Pattern

/-- The text of a pattern without properties. -/
def written (p : Pattern) : String := ", ".intercalate (p.elements.map PatternElement.written)

def nodeNames (p : Pattern) : List Identifier := p.elements.flatMap PatternElement.nodeNames

/-- The elements have no properties, and no two of their nodes have one name. -/
structure IsBare (p : Pattern) : Prop where
  nonempty : p.elements ≠ []
  nodes : ∀ e ∈ p.elements, ∀ n ∈ e.nodes, n.properties = none
  details : ∀ e ∈ p.elements, ∀ r ∈ e.relationships, r.detail.properties = none
  names : p.nodeNames.Nodup

end Pattern

end Text

namespace PatternReading

variable {es : List PatternElement}

section Nodes

variable {b : Option Open}

theorem leads_name (n : Option Identifier) :
    Leads (nameText n) ⟨es, .node b [] []⟩ ⟨es, .node b (nameText n).toList []⟩ := by
  refine Leads.characters (f := fun cs => ⟨es, .node b cs []⟩) (fun c hc => ?_) fun read c hc => ?_
  · exact (Text.isNamePart_not_delimiter (isNamePart_nameText hc)).2
  · have hmark := isNamePart_not_mark (isNamePart_nameText hc)
    simp only [marks, List.mem_cons, not_or] at hmark
    rw [Reader.character, if_neg hmark.1, if_neg hmark.2.1]

theorem leads_labels (name : List Char) (ls : List Label) :
    Leads (Printing.labels ls) ⟨es, .node b name []⟩ ⟨es, .node b name ls⟩ := by
  have hlabel : ∀ (read : List Label) (l : Label),
      Reader.quoted l.text ⟨es, .node b name read⟩ = some ⟨es, .node b name (read ++ [l])⟩ := by
    intro read l
    rw [Reader.quoted, dif_neg l.nonempty]
  exact Leads.quotedNames (c := ':') (g := Label.text) (f := fun read => ⟨es, .node b name read⟩) (by decide)
    (fun _ => rfl) hlabel [] ls

/-- A node, behind the parenthesis that opens it. -/
theorem leads_node {r : Reader} (hopen : r.character '(' = some ⟨es, .node b [] []⟩) {n : Node}
    (hn : n.properties = none) : Leads n.written r ⟨es, .behind (placed b n)⟩ := by
  have hclose : Leads ")" ⟨es, .node b (nameText n.name).toList n.labels⟩
      ⟨es, .behind (placed b n)⟩ := by
    refine .mark (c := ')') (by decide) ?_
    have hnode : (⟨n.name, n.labels, none⟩ : Node) = n := by
      cases n
      exact congrArg (Node.mk _ _) hn.symm
    rw [Reader.character, if_pos rfl, nameOf?_text, Option.map_some, hnode]
  exact (((Leads.mark (c := '(') (by decide) hopen).append (leads_name n.name)).append
    (leads_labels _ n.labels)).append hclose

end Nodes

section Brackets

variable {e : PatternElement} {left : Bool}

theorem leads_bracketName (n : Option Identifier) :
    Leads (nameText n) ⟨es, .bracket e left [] [] none⟩ ⟨es, .bracket e left (nameText n).toList [] none⟩ := by
  refine Leads.characters (f := fun cs => ⟨es, .bracket e left cs [] none⟩) (fun c hc => ?_) fun read c hc => ?_
  · exact (Text.isNamePart_not_delimiter (isNamePart_nameText hc)).2
  · have hmark := isNamePart_not_mark (isNamePart_nameText hc)
    simp only [marks, List.mem_cons, not_or, List.not_mem_nil, not_false_eq_true, and_true] at hmark
    simp only [Reader.character, hmark, if_false, or_self]

theorem leads_types (name : List Char) (ts : List String) :
    Leads (RelationshipDetail.typesText ts) ⟨es, .bracket e left name [] none⟩
      ⟨es, .bracket e left name ts none⟩ := by
  cases ts with
  | nil => exact .empty _
  | cons t ts =>
    have hfirst : Leads (":" ++ Text.quotedName t) ⟨es, .bracket e left name [] none⟩
        ⟨es, .bracket e left name [t] none⟩ := .quotedName (c := ':') (by decide) rfl rfl
    have hrest := Leads.quotedNames (c := '|') (g := id) (f := fun read => ⟨es, .bracket e left name read none⟩)
      (by decide) (fun _ => rfl) (fun _ _ => rfl) [t] ts
    rw [← Render.Writer.typesText_eq rfl, Render.Writer.typesText]
    exact hfirst.append hrest

theorem leads_length (name : List Char) (types : List String) (length : Option LengthRange) :
    Leads (RelationshipDetail.lengthText length) ⟨es, .bracket e left name types none⟩
      ⟨es, .bracket e left name types (length.map fun r => (rangeText r).toList)⟩ := by
  cases length with
  | none => exact .empty _
  | some r =>
    rw [lengthText_some]
    have hmark : Leads "*" ⟨es, .bracket e left name types none⟩ ⟨es, .bracket e left name types (some [])⟩ :=
      .mark (c := '*') (by decide) rfl
    refine hmark.append (Leads.characters (f := fun cs => ⟨es, .bracket e left name types (some cs)⟩)
      (fun c hc => ?_) fun read c hc => ?_)
    · exact (Text.isNumeral_not_delimiter (isNumeral_rangeText hc)).2
    · have hmark := isNumeral_not_mark (isNumeral_rangeText hc)
      simp only [marks, List.mem_cons, not_or, List.not_mem_nil, not_false_eq_true, and_true] at hmark
      simp only [Reader.character, hmark, if_false, or_self]

/-- The symbol on the left of the brackets decides for an arrow to the left or for a line. -/
theorem leads_left (direction : Direction) : Leads direction.left ⟨es, .behind e⟩
    ⟨es, .line e (direction == .rightToLeft)⟩ := by
  have harrow : Leads "<" ⟨es, .behind e⟩ ⟨es, .arrow e⟩ := .mark (c := '<') (by decide) rfl
  cases direction with
  | leftToRight | undirected => exact .mark (c := '-') (by decide) rfl
  | rightToLeft => exact harrow.append (.mark (c := '-') (by decide) rfl)

/-- The symbol on the right of the brackets makes an arrow to the right of a line. -/
theorem leads_right (direction : Direction) (name : Option Identifier) (types : List String)
    (length : Option LengthRange) :
    Leads direction.right
      ⟨es, .closing e ⟨if direction == .rightToLeft then .rightToLeft else .undirected, name, types, length, none⟩⟩
      ⟨es, .tail e ⟨direction, name, types, length, none⟩⟩ := by
  have hline : Leads "-" ⟨es, .closing e ⟨.undirected, name, types, length, none⟩⟩
      ⟨es, .tail e ⟨.undirected, name, types, length, none⟩⟩ := .mark (c := '-') (by decide) rfl
  cases direction with
  | leftToRight => exact hline.append (.mark (c := '>') (by decide) rfl)
  | rightToLeft => exact .mark (c := '-') (by decide) rfl
  | undirected => exact hline

/-- What stands between brackets, with the arrow around it. -/
theorem leads_detail {d : RelationshipDetail} (hd : d.properties = none) :
    Leads d.written ⟨es, .behind e⟩ ⟨es, .tail e d⟩ := by
  obtain ⟨direction, name, types, length, properties⟩ := d
  obtain rfl : properties = none := hd
  have hopen : Leads "[" ⟨es, .line e (direction == .rightToLeft)⟩
      ⟨es, .bracket e (direction == .rightToLeft) [] [] none⟩ := .mark (c := '[') (by decide) rfl
  have hclose : Leads "]" ⟨es, .bracket e (direction == .rightToLeft) (nameText name).toList types
      (length.map fun r => (rangeText r).toList)⟩
      ⟨es, .closing e ⟨if direction == .rightToLeft then .rightToLeft else .undirected, name, types, length, none⟩⟩ := by
    have hlength : lengthOf? (length.map fun r => (rangeText r).toList) = some length := by
      cases length with
      | none => rfl
      | some r => rw [Option.map_some, lengthOf?, rangeOf?_text, Option.map_some]
    refine .mark (c := ']') (by decide) ?_
    change (detailOf? _ _ _ _).map _ = _
    rw [detailOf?, nameOf?_text, Option.bind_some, hlength]
    rfl
  exact ((((((leads_left direction).append hopen).append (leads_bracketName name)).append
    (leads_types _ types)).append (leads_length _ types length)).append hclose).append
    (leads_right direction name types length)

end Brackets

section Elements

/-- A relationship and the node at its other end. -/
theorem leads_hop {r : Relationship} (hdetail : r.detail.properties = none) (hnode : r.right.properties = none)
    (e : PatternElement) : Leads r.writtenHop ⟨es, .behind e⟩ ⟨es, .behind (e.extend r.detail r.right)⟩ :=
  (leads_detail hdetail).append (leads_node (b := some (e, r.detail)) rfl hnode)

theorem leads_hops {rs : List Relationship}
    (h : ∀ r ∈ rs, r.detail.properties = none ∧ r.right.properties = none) (e : PatternElement) :
    Leads (String.join (rs.map Relationship.writtenHop)) ⟨es, .behind e⟩
      ⟨es, .behind (rs.foldl (fun e r => e.extend r.detail r.right) e)⟩ := by
  induction rs generalizing e with
  | nil => exact .empty _
  | cons r rs ih =>
    obtain ⟨hr, hrs⟩ := List.forall_mem_cons.mp h
    rw [List.map_cons, String.join_cons]
    exact (leads_hop hr.1 hr.2 e).append (ih hrs _)

theorem leads_relationships {c : Chain} (hnodes : ∀ n ∈ (PatternElement.chain c).nodes, n.properties = none)
    (hdetails : ∀ r ∈ c.relationships, r.detail.properties = none) :
    Leads (PatternElement.writtenRelationships c.relationships) ⟨es, .element⟩ ⟨es, .behind (.chain c)⟩ := by
  obtain ⟨r, rs, hrs⟩ := List.exists_cons_of_ne_nil c.relationships_ne_nil
  have hlinked : Relationship.Linked (r :: rs) := hrs ▸ c.linked
  rw [PatternElement.nodes_chain hrs] at hnodes
  obtain ⟨hleft, hright⟩ := List.forall_mem_cons.mp hnodes
  have hhops : Leads _ ⟨es, .behind (.node r.left)⟩ _ :=
    leads_hops (fun s hs => ⟨hdetails s (hrs ▸ hs), hright _ (List.mem_map_of_mem hs)⟩) (.node r.left)
  -- Behind the first hop the element is the chain of the first relationship.
  obtain ⟨d, hd, hrelationships⟩ := Chain.foldl_extend (c := .ofRelationship r) hlinked
  obtain rfl : d = c := Chain.ext_relationships (hrelationships.trans hrs.symm)
  rw [hrs, PatternElement.writtenRelationships, ← hd]
  exact (leads_node (b := none) rfl hleft).append hhops

theorem leads_element {e : PatternElement} (hnodes : ∀ n ∈ e.nodes, n.properties = none)
    (hdetails : ∀ r ∈ e.relationships, r.detail.properties = none) :
    Leads e.written ⟨es, .element⟩ ⟨es, .behind e.normal⟩ := by
  cases e with
  | node n => exact leads_node (b := none) rfl (hnodes n List.mem_cons_self)
  | relationship r => exact leads_relationships (c := .ofRelationship r) hnodes hdetails
  | chain c => exact leads_relationships hnodes hdetails

/-- Elements with commas between them. -/
theorem leads_elements {e : PatternElement} {rest : List PatternElement}
    (hnodes : ∀ f ∈ e :: rest, ∀ n ∈ f.nodes, n.properties = none)
    (hdetails : ∀ f ∈ e :: rest, ∀ r ∈ f.relationships, r.detail.properties = none) :
    ∃ before last, Leads (", ".intercalate ((e :: rest).map PatternElement.written)) ⟨es, .element⟩
      ⟨es ++ before, .behind last⟩ ∧ before ++ [last] = (e :: rest).map PatternElement.normal := by
  induction rest generalizing e es with
  | nil =>
    refine ⟨[], e.normal, ?_, rfl⟩
    rw [List.map_singleton, String.intercalate_singleton, List.append_nil]
    exact leads_element (hnodes e List.mem_cons_self) (hdetails e List.mem_cons_self)
  | cons f rest ih =>
    obtain ⟨hnode, hnodes⟩ := List.forall_mem_cons.mp hnodes
    obtain ⟨hdetail, hdetails⟩ := List.forall_mem_cons.mp hdetails
    obtain ⟨before, last, hleads, hlast⟩ := @ih (es ++ [e.normal]) f hnodes hdetails
    have hcomma : Leads "," ⟨es, .behind e.normal⟩ ⟨es ++ [e.normal], .comma⟩ := .mark (c := ',') (by decide) rfl
    have hblank : Leads " " ⟨es ++ [e.normal], .comma⟩ ⟨es ++ [e.normal], .element⟩ :=
      .mark (c := ' ') (by decide) rfl
    rw [List.append_assoc, List.singleton_append] at hleads
    refine ⟨e.normal :: before, last, ?_, congrArg (e.normal :: ·) hlast⟩
    rw [List.map_cons, List.map_cons, String.intercalate_cons_cons]
    exact ((leads_element hnode hdetail).append (hcomma.append hblank)).append hleads

end Elements

/-- The text of a pattern is read as its elements. -/
theorem read_written {p : Pattern} (h : p.IsBare) :
    read p.written = some (p.elements.map PatternElement.normal) := by
  obtain ⟨e, rest, hp⟩ := List.exists_cons_of_ne_nil h.nonempty
  obtain ⟨before, last, hleads, hlast⟩ := @leads_elements [] e rest (hp ▸ h.nodes) (hp ▸ h.details)
  rw [Pattern.written, hp, hleads.finish, ← hlast]
  rfl

end PatternReading

/-- Nodes with some names have been printed. -/
def Printed.naming (ns : List Identifier) (s : Printed) : Printed := { s with nodes := ns.reverse ++ s.nodes }

theorem Printed.naming_append (ns ms : List Identifier) (s : Printed) :
    s.naming (ns ++ ms) = (s.naming ns).naming ms := by
  simp [naming]

namespace Printing

/-- Where none of some different names is known, the text is always the same and the names are noted. -/
def Yields (m : Printing) (t : String) (ns : List Identifier) : Prop :=
  ∀ s : Printed, ns.Nodup → (∀ n ∈ ns, n ∉ s.nodes) → m.run s = (t, s.naming ns)

namespace Yields

variable {m m' : Printing} {t t' : String} {ns ms : List Identifier}

theorem disjoint {s : Printed} (hnodup : (ns ++ ms).Nodup) (hnew : ∀ n ∈ ns ++ ms, n ∉ s.nodes) :
    (ns.Nodup ∧ ∀ n ∈ ns, n ∉ s.nodes) ∧ ms.Nodup ∧ ∀ n ∈ ms, n ∉ (s.naming ns).nodes := by
  obtain ⟨hns, hms, hdisjoint⟩ := List.nodup_append.mp hnodup
  obtain ⟨hnew, hnew'⟩ := List.forall_mem_append.mp hnew
  refine ⟨⟨hns, hnew⟩, hms, fun n hn hmem => ?_⟩
  obtain hmem | hmem := List.mem_append.mp hmem
  · exact hdisjoint n (List.mem_reverse.mp hmem) n hn rfl
  · exact hnew' n hn hmem

theorem append (hm : Yields m t ns) (hm' : Yields m' t' ms) :
    Yields (do return (← m) ++ (← m')) (t ++ t') (ns ++ ms) := by
  intro s hnodup hnew
  obtain ⟨⟨hns, hnew⟩, hms, hnew'⟩ := disjoint hnodup hnew
  simp only [run_bind, run_pure, hm s hns hnew, hm' _ hms hnew', Printed.naming_append]

theorem mapM {α : Type} {f : α → Printing} {g : α → String} {names : α → List Identifier} {xs : List α}
    (h : ∀ x ∈ xs, Yields (f x) (g x) (names x)) (s : Printed) (hnodup : (xs.flatMap names).Nodup)
    (hnew : ∀ n ∈ xs.flatMap names, n ∉ s.nodes) :
    (xs.mapM f).run s = (xs.map g, s.naming (xs.flatMap names)) := by
  induction xs generalizing s with
  | nil => rfl
  | cons x xs ih =>
    obtain ⟨hx, hxs⟩ := List.forall_mem_cons.mp h
    obtain ⟨⟨hns, hnew⟩, hms, hnew'⟩ := disjoint hnodup hnew
    rw [List.mapM_cons, List.flatMap_cons, Printed.naming_append]
    simp only [run_bind, run_pure, hx s hns hnew, ih hxs _ hms hnew', List.map_cons]

end Yields

/-- A node is written in full the first time. -/
theorem yields_node {n : Node} (hn : n.properties = none) : Yields n.print n.written n.name.toList := by
  obtain ⟨name, ls, properties⟩ := n
  obtain rfl : properties = none := hn
  intro s _ hnew
  have hbody : ∀ s, (do return labels ls ++ (← printProperties none) : Printing).run s = (labels ls, s) := fun s => by
    simp only [printProperties, run_bind, run_pure, String.append_empty]
  cases name with
  | none =>
    rw [Node.print, run_node_none, hbody]
    rfl
  | some n =>
    rw [Node.print, run_node_some, if_neg (hnew n List.mem_cons_self), hbody]
    rfl

theorem yields_hop {r : Relationship} (hdetail : r.detail.properties = none) (hnode : r.right.properties = none) :
    Yields r.printHop r.writtenHop r.right.name.toList := by
  have hprint : Yields r.detail.print r.detail.written [] := fun s _ _ => by
    rw [RelationshipDetail.print, hdetail]
    simp only [printProperties, run_bind, run_pure, String.append_empty, RelationshipDetail.written, nameText]
    rfl
  exact hprint.append (yields_node hnode)

theorem yields_relationships {c : Chain} (hnodes : ∀ n ∈ (PatternElement.chain c).nodes, n.properties = none)
    (hdetails : ∀ r ∈ c.relationships, r.detail.properties = none) :
    Yields (PatternElement.printRelationships c.relationships)
      (PatternElement.writtenRelationships c.relationships) (PatternElement.chain c).nodeNames := by
  obtain ⟨r, rs, hrs⟩ := List.exists_cons_of_ne_nil c.relationships_ne_nil
  rw [PatternElement.nodes_chain hrs] at hnodes
  obtain ⟨hleft, hright⟩ := List.forall_mem_cons.mp hnodes
  have hnames : (PatternElement.chain c).nodeNames =
      r.left.name.toList ++ (r :: rs).flatMap fun s => s.right.name.toList := by
    rw [PatternElement.nodeNames, PatternElement.nodes_chain hrs, List.flatMap_cons, List.flatMap_map]
  have hhops : Yields (do return String.join (← (r :: rs).mapM Relationship.printHop))
      (String.join ((r :: rs).map Relationship.writtenHop)) ((r :: rs).flatMap fun s => s.right.name.toList) := by
    intro s hnodup hnew
    have hrun := Yields.mapM (fun t ht => yields_hop (hdetails t (hrs ▸ ht)) (hright _ (List.mem_map_of_mem ht)))
      s hnodup hnew
    simp only [run_bind, run_pure, hrun]
  rw [hrs, hnames]
  exact (yields_node hleft).append hhops

theorem yields_element {e : PatternElement} (hnodes : ∀ n ∈ e.nodes, n.properties = none)
    (hdetails : ∀ r ∈ e.relationships, r.detail.properties = none) : Yields e.print e.written e.nodeNames := by
  cases e with
  | node n =>
    have hnames : (PatternElement.node n).nodeNames = n.name.toList := List.flatMap_singleton _ _
    rw [hnames]
    exact yields_node (hnodes n List.mem_cons_self)
  | relationship r => exact yields_relationships (c := .ofRelationship r) hnodes hdetails
  | chain c => exact yields_relationships hnodes hdetails

theorem yields_pattern {p : Pattern} (h : p.IsBare) : Yields p.print p.written p.nodeNames := by
  intro s hnodup hnew
  have hrun := Yields.mapM (fun e he => yields_element (h.nodes e he) (h.details e he)) s hnodup hnew
  rw [Pattern.print]
  simp only [run_bind, run_pure, hrun]
  rfl

end Printing
section Clauses

open Text (EndsTight)

theorem Node.endsTight_written (n : Node) : EndsTight n.written := .append _ (by decide)

theorem PatternElement.endsTight_written (e : PatternElement) : EndsTight e.written := by
  have hrelationships : ∀ rs : List Relationship, rs ≠ [] → EndsTight (writtenRelationships rs) := by
    intro rs hrs
    obtain ⟨r, rs, rfl⟩ := List.exists_cons_of_ne_nil hrs
    refine .append _ (.join (by simp) fun t ht => ?_)
    obtain ⟨s, -, rfl⟩ := List.mem_map.mp ht
    exact .append _ s.right.endsTight_written
  cases e with
  | node n => exact n.endsTight_written
  | relationship r => exact hrelationships [r] (List.cons_ne_nil _ _)
  | chain c => exact hrelationships _ c.relationships_ne_nil

namespace Pattern

variable {p : Pattern}

theorem endsTight_written (h : p.elements ≠ []) : EndsTight p.written := by
  refine .intercalate (by simpa using h) fun t ht => ?_
  obtain ⟨e, -, rfl⟩ := List.mem_map.mp ht
  exact e.endsTight_written

/-- The clauses of a pattern alone. -/
def clauses (p : Pattern) : List Clause :=
  [.matching ⟨false, p, none⟩, .matching ⟨true, p, none⟩, .creating p, .merging p]

theorem run_print_clause {c : Clause} (hc : c ∈ p.clauses) (s : Printed) :
    (c.print.run s).1 = c.keyword ++ " " ++ (p.print.run s).1 ∧ c.trailing = " " := by
  simp only [clauses, List.mem_cons, List.not_mem_nil, or_false] at hc
  obtain rfl | rfl | rfl | rfl := hc
  · exact ⟨String.append_empty, rfl⟩
  · exact ⟨String.append_empty, rfl⟩
  · exact ⟨rfl, rfl⟩
  · exact ⟨rfl, rfl⟩

/-- A clause of a pattern alone is rendered as its keyword and the pattern. -/
theorem text_render_clause (h : p.IsBare) {c : Clause} (hc : c ∈ p.clauses) (settings : RenderSettings) :
    ((Statement.single ⟨[c]⟩).render settings).value.text = c.keyword ++ " " ++ p.written := by
  let w : Render.Writer := (Statement.single ⟨[c]⟩).initial settings.stem
  have hclause : (c.print.run w.printed).1 = c.keyword ++ " " ++ p.written := by
    rw [(run_print_clause hc _).1, Printing.yields_pattern h w.printed h.names fun _ _ => List.not_mem_nil]
  have hwritten := (Render.Writer.writes_query ⟨[c]⟩ [0] [⟨[], (Statement.single ⟨[c]⟩).tree⟩] w rfl rfl).text
  rw [Render.Writer.separate_of_not_isSeparated w rfl] at hwritten
  have htext : (Render.Writer.visitor.walk [] (Statement.single ⟨[c]⟩).tree [] w).text =
      (c.print.run w.printed).1 ++ " " := by
    have hspaced : ((Query.printSpaced ⟨[c]⟩).run w.printed).1 = (c.print.run w.printed).1 ++ " " := by
      simp only [Query.printSpaced, Clause.printSpaced, List.mapM_cons, List.mapM_nil, Printing.run_bind,
        Printing.run_pure, String.join_cons, String.join_nil, String.append_empty, (run_print_clause hc w.printed).2]
    rw [hspaced, Statement.initial_text, String.empty_append] at hwritten
    rw [Statement.tree, Statement.walk_statement _ _ rfl]
    exact hwritten
  rw [Statement.text_render, htext, hclause]
  refine Text.trimmed_append ?_ ?_ ?_
  · rw [← hclause]
    exact c.beginsTight_print _
  · exact .append _ (endsTight_written h.nonempty)
  · exact List.all_eq_true.mp (by decide)

end Pattern

end Clauses

open Render.Writer (visitor)

/-- The text of a pattern determines the pattern. Elements without properties whose nodes have different
names are rendered alike behind the keyword of any clause, and written alike wherever none of these names
was written before, and the reader finds in their text each node with its name and its labels, and each
relationship with its direction, its name, its types and its length. So two patterns with one text are
the same, but for a relationship and the chain that it makes. -/
theorem Pattern.written_determines {p : Pattern} (h : p.IsBare) :
    (∀ c ∈ p.clauses, ∀ settings,
      ((Statement.single ⟨[c]⟩).render settings).value.text = c.keyword ++ " " ++ p.written) ∧
      (∀ (path : List Nat) (ancestors : List Place) (w : Render.Writer), w.skipping = false →
        (∀ n ∈ p.nodeNames, n ∉ w.nodes) →
          (visitor.walk path p.tree ancestors w).text = (w.separate ancestors).text ++ p.written) ∧
      PatternReading.read p.written = some (p.elements.map PatternElement.normal) ∧
      ∀ q : Pattern, q.IsBare → q.written = p.written →
        q.elements.map PatternElement.normal = p.elements.map PatternElement.normal := by
  refine ⟨fun c hc settings => text_render_clause h hc settings, fun path ancestors w hw hnew => ?_,
    PatternReading.read_written h, fun q hq htext => ?_⟩
  · have hprints := Render.Writer.writes_pattern p path ancestors w rfl hw
    rw [hprints.text, Render.Writer.printed_separate, Printing.yields_pattern h w.printed h.names hnew]
  · have hread := PatternReading.read_written hq
    rw [htext, PatternReading.read_written h] at hread
    exact (Option.some.inj hread).symm

/-- Labels and types that look like parts of a pattern, and lengths of every form. -/
theorem Pattern.written_determines_hostile :
    let a : Node := ⟨some ⟨"from", by decide +kernel⟩, [⟨"\x60)-[", by decide⟩, ⟨", (", by decide⟩], none⟩
    let b : Node := ⟨none, [], none⟩
    let c : Node := ⟨some ⟨"to", by decide +kernel⟩, [], none⟩
    let name : Identifier := ⟨"via", by decide +kernel⟩
    let r : Relationship := ⟨a, ⟨.leftToRight, some name, ["T|\x60U", "]->"], some ⟨some 1, some 3⟩, none⟩, b⟩
    let s : Relationship := ⟨b, ⟨.rightToLeft, none, [], some .unbounded, none⟩, c⟩
    let t : Relationship := ⟨b, ⟨.undirected, none, ["*"], some ⟨some 2, none⟩, none⟩, b⟩
    let p : Pattern := ⟨[.chain ⟨[r], s, by simp [Relationship.Linked, s, r]⟩, .node b, .relationship t]⟩
    p.IsBare ∧ PatternReading.read p.written = some (p.elements.map PatternElement.normal) ∧
      p.written = "(from:\x60\x60\x60)-[\x60:\x60, (\x60)-[via:\x60T|\x60\x60U\x60|\x60]->\x60*1..3]->()<-[*]-(to), (), " ++
        "()-[:\x60*\x60*2..]-()" := by
  intro a b c name r s t p
  have hp : p.IsBare := by
    refine ⟨List.cons_ne_nil _ _, ?_, ?_, by decide +kernel⟩
    · simp [p, PatternElement.nodes, Chain.relationships, r, s, t, a, b, c]
    · simp [p, PatternElement.relationships, Chain.relationships, r, s, t]
  exact ⟨hp, (Pattern.written_determines hp).2.2.1, by decide +kernel⟩

end GraphQuery
