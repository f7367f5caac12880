import AccessRules.Proofs.Rules.Census
import Mathlib.Data.List.Basic

namespace AccessRules

def Atom.quotedLiteral? : Atom → Option String
  | .literal (.string text) => if '\'' ∈ text.toList then some text else none
  | _ => none

def Element.quotedLiterals (element : Element) : List String :=
  element.flatten.filterMap Atom.quotedLiteral?

theorem Atom.warnings_eq (atom : Atom) :
    atom.warnings = atom.quotedLiteral?.toList.map .literalQuote := by
  cases atom with
  | literal scalar =>
      cases scalar with
      | string text =>
          by_cases quote : '\'' ∈ text.toList <;>
            simp [warnings, Literal.warnings, Literal.hasQuote, quotedLiteral?, quote]
      | _ => rfl
  | _ => rfl

theorem Element.warnings_eq (element : Element) :
    element.warnings = element.quotedLiterals.map .literalQuote := by
  rw [warnings, quotedLiterals]
  induction element.flatten with
  | nil => rfl
  | cons atom rest ih =>
      rw [List.flatMap_cons, ih, atom.warnings_eq, List.filterMap_cons]
      cases atom.quotedLiteral? <;> rfl

def Message.isRendered : Message → Bool
  | .rendered _ _ => true
  | _ => false

namespace Resolved

mutual

/-- The nodes in order, each with the keys that lead to it. -/
def nodes : Resolved → List (List String × Resolved)
  | .map entries => ([], .map entries) :: entryNodes entries
  | leaf => [([], leaf)]

def entryNodes : List (String × Resolved) → List (List String × Resolved)
  | [] => []
  | (key, child) :: rest =>
      (child.nodes.map fun node => (key :: node.1, node.2)) ++ entryNodes rest

end

def form : Resolved → NodeForm
  | .map _ => .map
  | .list _ => .list
  | .scalar _ => .value
  | .expression _ => .expression

def expression? : Resolved → Option Element
  | .expression element => some element
  | _ => none

def expressions (node : Resolved) : List (Location × Element) :=
  node.nodes.filterMap fun node => node.2.expression?.map fun element => (⟨node.1⟩, element)

def reports (location : Location) : Resolved → List Message
  | .map _ => [.visiting location]
  | .expression element =>
      element.quotedLiterals.map .literalQuote ++ [.rendered location element.text]
  | _ => []

mutual

theorem nodes_document (node : Resolved) (opened : node.Opened) :
    node.document.nodes = node.nodes.map fun node => (node.1, node.2.document) := by
  cases node with
  | map entries =>
      rw [document, Json.nodes, nodes, List.map_cons, memberNodes_documentEntries entries opened,
        document]
  | scalar json => cases json <;> first | rfl | contradiction
  | _ => rfl

theorem memberNodes_documentEntries (entries : List (String × Resolved))
    (opened : EntriesOpened entries) :
    Json.memberNodes (documentEntries entries) =
      (entryNodes entries).map fun node => (node.1, node.2.document) := by
  cases entries with
  | nil => rfl
  | cons entry rest =>
      obtain ⟨key, child⟩ := entry
      rw [documentEntries, Json.memberNodes, entryNodes, nodes_document child opened.1,
        memberNodes_documentEntries rest opened.2]
      simp

end

mutual

theorem opened_of_mem_nodes {node : Resolved} (opened : node.Opened)
    {found : List String × Resolved} (member : found ∈ node.nodes) : found.2.Opened := by
  cases node with
  | map entries =>
      rcases List.mem_cons.mp member with rfl | below
      · exact opened
      · exact opened_of_mem_entryNodes opened below
  | _ =>
      obtain rfl := List.mem_singleton.mp member
      exact opened

theorem opened_of_mem_entryNodes {entries : List (String × Resolved)}
    (opened : EntriesOpened entries) {found : List String × Resolved}
    (member : found ∈ entryNodes entries) : found.2.Opened := by
  cases entries with
  | nil => contradiction
  | cons entry rest =>
      obtain ⟨key, child⟩ := entry
      rcases List.mem_append.mp member with here | later
      · obtain ⟨below, inside, rfl⟩ := List.mem_map.mp here
        have opens : below.2.Opened := opened_of_mem_nodes opened.1 inside
        exact opens
      · exact opened_of_mem_entryNodes opened.2 later

end

mutual

theorem counts_nodes (depth : Nat) (node : Resolved) :
    (node.tally depth).Counts (node.nodes.map fun node => node.2.form) := by
  cases node with
  | map entries => exact (Tally.counts_visit depth).combine (counts_entryNodes (depth + 1) entries)
  | _ => exact ⟨rfl, rfl, rfl, rfl, rfl⟩

theorem counts_entryNodes (depth : Nat) (entries : List (String × Resolved)) :
    (entryTally depth entries).Counts ((entryNodes entries).map fun node => node.2.form) := by
  cases entries with
  | nil => exact Tally.counts_zero
  | cons entry rest =>
      obtain ⟨key, child⟩ := entry
      have first := counts_nodes depth child
      rw [entryNodes, List.map_append, List.map_map]
      exact first.combine (counts_entryNodes depth rest)

end

theorem isObject_document {node : Resolved} (opened : node.Opened) :
    node.document.isObject = (node.form == .map) := by
  cases node with
  | scalar json => cases json <;> first | rfl | contradiction
  | _ => rfl

theorem reports_at_trace {node : Resolved} (opened : node.Opened) (location : Location) :
    (node.reports location).filter (·.level == .trace) =
      if node.document.isObject then [.visiting location] else [] := by
  cases node with
  | map entries => rfl
  | list items => rfl
  | scalar json => cases json <;> first | rfl | contradiction
  | expression element =>
      have silent : (element.quotedLiterals.map Message.literalQuote).filter
          (·.level == .trace) = [] := by
        simp [List.filter_eq_nil_iff, Message.level]
      rw [reports, List.filter_append, silent]
      rfl

theorem reports_rendered (node : Resolved) (location : Location) :
    (node.reports location).filter Message.isRendered =
      (node.expression?.map fun element => .rendered location element.text).toList := by
  cases node with
  | expression element =>
      have silent : (element.quotedLiterals.map Message.literalQuote).filter
          Message.isRendered = [] := by
        simp [List.filter_eq_nil_iff, Message.isRendered]
      rw [reports, List.filter_append, silent]
      rfl
  | _ => rfl

theorem reports_at_warn (node : Resolved) (location : Location) :
    (node.reports location).filter (·.level == .warn) =
      (node.expression?.toList.flatMap Element.quotedLiterals).map .literalQuote := by
  cases node with
  | expression element =>
      have kept : (element.quotedLiterals.map Message.literalQuote).filter (·.level == .warn) =
          element.quotedLiterals.map .literalQuote := by
        simp [List.filter_eq_self, Message.level]
      rw [reports, List.filter_append, kept]
      simp [expression?, Message.level]
  | _ => rfl

def lines (node : Resolved) : List Message :=
  node.nodes.flatMap fun node => node.2.reports ⟨node.1⟩

theorem lines_at_trace {node : Resolved} (opened : node.Opened) :
    node.lines.filter (·.level == .trace) =
      (node.document.nodes.filter fun node => node.2.isObject).map fun node =>
        .visiting ⟨node.1⟩ := by
  have each : ∀ found ∈ node.nodes, (found.2.reports ⟨found.1⟩).filter (·.level == .trace) =
      if found.2.document.isObject then [.visiting ⟨found.1⟩] else [] :=
    fun found member => reports_at_trace (opened_of_mem_nodes opened member) ⟨found.1⟩
  rw [lines, List.filter_flatMap, List.flatMap_congr each, nodes_document node opened]
  clear each
  induction node.nodes with
  | nil => rfl
  | cons found rest ih => cases object : found.2.document.isObject <;> simp [ih, object]

theorem lines_rendered (node : Resolved) :
    node.lines.filter Message.isRendered =
      node.expressions.map fun leaf => .rendered leaf.1 leaf.2.text := by
  rw [lines, List.filter_flatMap, expressions, List.map_filterMap,
    List.filterMap_eq_flatMap_toList]
  refine List.flatMap_congr fun found _ => ?_
  rw [reports_rendered]
  cases found.2.expression? <;> rfl

theorem lines_at_warn (node : Resolved) :
    node.lines.filter (·.level == .warn) =
      node.expressions.flatMap fun leaf => leaf.2.quotedLiterals.map .literalQuote := by
  rw [lines, List.filter_flatMap, expressions, List.filterMap_eq_flatMap_toList,
    List.flatMap_assoc]
  refine List.flatMap_congr fun found _ => ?_
  rw [reports_at_warn]
  cases found.2.expression? <;> simp

theorem length_objects {node : Resolved} (opened : node.Opened) (depth : Nat) :
    (node.document.nodes.filter fun node => node.2.isObject).length =
      (node.tally depth).locations := by
  rw [(node.counts_nodes depth).locations, nodes_document node opened, List.filter_map,
    List.length_map, List.count_eq_countP, List.countP_map, List.countP_eq_length_filter]
  congr 1
  exact List.filter_congr fun found member =>
    isObject_document (opened_of_mem_nodes opened member)

theorem length_expressions (node : Resolved) (depth : Nat) :
    node.expressions.length = (node.tally depth).expressions := by
  rw [(node.counts_nodes depth).expressions, expressions]
  induction node.nodes with
  | nil => rfl
  | cons found rest ih => cases shape : found.2 <;> simp_all [expression?, form]

end Resolved

end AccessRules
