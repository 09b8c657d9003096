import ReactiveView.Document.Format
import ReactiveView.Proofs.Json.RoundTrip

/-!
This module contains that documents come back from the text that they were written as: every node is
read as itself from its JSON form, at top level and inside of another node, and the text is refused
just where the nesting reaches the limit.
-/

namespace ReactiveView

open Json (Textual)

/-! ### The JSON forms -/

theorem textual_ofOptionalText (s : Option String) : (Json.ofOptionalText s).Textual := by
  cases s with
  | none => exact .null
  | some s => exact .text s

theorem toOptionalText?_ofOptionalText (s : Option String) :
    (Json.ofOptionalText s).toOptionalText? = some s := by
  cases s <;> rfl

namespace ImportName

/-- The JSON form of a symbol of an import. -/
def toJson (n : ImportName) : Json :=
  .object [(some "name", .text n.name), (some "alias", Json.ofOptionalText n.boundAs)]

theorem textual_toJson (n : ImportName) : n.toJson.Textual :=
  .member _ (.text _) (.member _ (textual_ofOptionalText _) Json.textual_empty)

theorem ofJson?_toJson (n : ImportName) : ofJson? n.toJson = some n := by
  cases n with
  | mk name boundAs => cases boundAs <;> rfl

theorem listOfJson?_toJson (ns : List ImportName) :
    listOfJson? (.array (ns.map toJson)) = some ns := by
  change (ns.map toJson).mapM ofJson? = some ns
  induction ns with
  | nil => rfl
  | cons n rest ih =>
    rw [List.map_cons, List.mapM_cons, ofJson?_toJson, ih]
    rfl

end ImportName

namespace Node

mutual

/-- Nothing in the JSON form of a node is a number. -/
theorem textual_toJson : (n : Node) → n.toJson.Textual
  | imports i => by
    have hnames : (Json.array (i.names.map ImportName.toJson)).Textual := by
      refine .array fun j hj => ?_
      obtain ⟨n, -, rfl⟩ := List.mem_map.1 hj
      exact n.textual_toJson
    exact .member _ (.text _) (.member _ (.text _) (.member _ (textual_ofOptionalText _)
      (.member _ hnames Json.textual_empty)))
  | element _ _ body | metadata _ _ body =>
    .member _ (.text _) (.member _ (.text _) (.member _ (textual_ofOptionalText _)
      (.member _ (.array (textual_toJsons body)) Json.textual_empty)))
  | binding _ _ _ =>
    .member _ (.text _) (.member _ (.text _) (.member _ (.text _) Json.textual_empty))
  | block body =>
    .member _ (.text _) (.member _ (.array (textual_toJsons body)) Json.textual_empty)
  | comment _ => .member _ (.text _) (.member _ (.text _) Json.textual_empty)

theorem textual_toJsons : (ns : List Node) → ∀ j ∈ toJsons ns, j.Textual
  | [] => nofun
  | n :: rest => List.forall_mem_cons.2 ⟨textual_toJson n, textual_toJsons rest⟩

end

mutual

/-- A node is read from its JSON form, wherever it stands. -/
theorem ofJson?_toJson (nested : Bool) : (n : Node) → ofJson? nested n.toJson = some n
  | imports i => by
    have hnames := ImportName.listOfJson?_toJson i.names
    obtain ⟨module, boundAs, names⟩ := i
    rw [toJson, ofJson?]
    change (do
      let boundAs ← (Json.ofOptionalText boundAs).toOptionalText?
      let names ← ImportName.listOfJson? (.array (names.map ImportName.toJson))
      pure (imports { module, boundAs, names })) = _
    rw [toOptionalText?_ofOptionalText, hnames]
    rfl
  | element name identifier body => by
    have hbody := nodesOf?_toJsons true body
    rw [toJson, ofJson?]
    simp only [fieldsOf, listOfJson?]
    rw [hbody]
    cases identifier <;> rfl
  | metadata name identifier body => by
    have hbody := nodesOf?_toJsons true body
    rw [toJson, ofJson?]
    simp only [fieldsOf, listOfJson?]
    rw [hbody]
    cases identifier <;> rfl
  | binding kind attr code => by cases kind <;> rfl
  | block body => by
    have hbody := nodesOf?_toJsons true body
    rw [toJson, ofJson?]
    simp only [fieldsOf, listOfJson?]
    rw [hbody]
    rfl
  | comment text => rfl

/-- Nodes are read from their JSON forms. -/
theorem nodesOf?_toJsons (nested : Bool) : (ns : List Node) → nodesOf? nested (toJsons ns) = some ns
  | [] => rfl
  | n :: rest => by
    rw [toJsons, nodesOf?, ofJson?_toJson nested n, nodesOf?_toJsons nested rest]
    rfl

end

end Node

namespace Document

theorem textual_toJson (d : Document) : d.toJson.Textual :=
  .member _ (.array (Node.textual_toJsons d.body)) Json.textual_empty

theorem depth_toJson (d : Document) :
    d.toJson.depth = (Json.array (Node.toJsons d.body)).depth + 1 :=
  congrArg (· + 1) (Nat.max_zero _)

/-- A document comes back from its text if it is nested less than 128 deep; else the text is
refused. -/
theorem read_write (d : Document) :
    Document.read d.write = if d.toJson.depth < 128 then some d else none := by
  have hsound : (Json.array (Node.toJsons d.body)).isSound = true :=
    (Textual.array (Node.textual_toJsons d.body)).isSound
  have hread : Document.read d.write = ofBody? (.array (Node.toJsons d.body)) := by
    unfold Document.read write
    rw [d.textual_toJson.reads]
    rfl
  have hdepth : (Json.array (Node.toJsons d.body)).depth < depthLimit ↔ d.toJson.depth < 128 := by
    rw [depth_toJson]
    exact Nat.succ_lt_succ_iff.symm
  rw [hread]
  unfold ofBody?
  rw [hsound, Bool.true_and, Node.listOfJson?, Node.nodesOf?_toJsons]
  simp only [decide_eq_true_eq, hdepth]
  rfl

end Document

end ReactiveView
