import ReactiveView.Proofs.Document.Nodes
import ReactiveView.Proofs.Network.Silence
import Mathlib

/-!
This module contains blueprints with other statements in their notifies, and blueprints whose notifies
stay quiet while a view is built: what they are tied to changes no more once it has been assigned.
-/

namespace ReactiveView

/-- The names that lead to what may change the attribute again, once the code has been tied to it. -/
def Binding.reads : Binding → List String
  | .default .. => []
  | .bind _ e => e.names
  | .delegate _ e _ => e.names
  | .notify .. => []

theorem Binding.kind_recode (g : List Statement → List Statement) (binding : Binding) :
    (binding.recode g).kind = binding.kind := by
  cases binding <;> rfl

namespace Blueprint

/-! ### Other statements -/

/-- An entry with other statements. -/
def recodeEntry (g : List Statement → List Statement) (entry : String × Binding) :
    String × Binding :=
  (entry.1, entry.2.recode g)

mutual

/-- The blueprint with other statements. -/
def recode (g : List Statement → List Statement) : Blueprint → Blueprint
  | { widgetClass, identifier, children, notes, assignments, notifiers } =>
    { widgetClass, identifier, children := recodeAll g children, notes := recodeAll g notes
      assignments := assignments.map (recodeEntry g), notifiers := notifiers.map (recodeEntry g) }

/-- Several blueprints with other statements. -/
def recodeAll (g : List Statement → List Statement) : List Blueprint → List Blueprint
  | [] => []
  | b :: rest => recode g b :: recodeAll g rest

end

section

variable (g : List Statement → List Statement) (b : Blueprint)

theorem widgetClass_recode : (b.recode g).widgetClass = b.widgetClass := by
  cases b
  rw [recode]

theorem identifier_recode : (b.recode g).identifier = b.identifier := by
  cases b
  rw [recode]

theorem label_recode : (b.recode g).label = b.label := by
  unfold label
  rw [widgetClass_recode, identifier_recode]

theorem bindings_recode : (b.recode g).bindings = b.bindings.map (recodeEntry g) := by
  cases b
  rw [recode]
  exact List.map_append.symm

theorem recodeAll_eq_map (bs : List Blueprint) : recodeAll g bs = bs.map (recode g) := by
  induction bs with
  | nil => rw [recodeAll, List.map_nil]
  | cons b rest ih => rw [recodeAll, List.map_cons, ih]

end

/-! ### Order of code -/

/-- Code is sorted into what assigns, at most once for each attribute, and notifies. -/
structure Sorted (b : Blueprint) : Prop where
  distinct : (b.assignments.map Prod.fst).Nodup
  assigns : ∀ entry ∈ b.assignments, entry.2.kind ≠ .notify
  notifies : ∀ entry ∈ b.notifiers, entry.2.kind = .notify

theorem latest_sublist (entries : List (String × Binding)) : (latest entries).Sublist entries := by
  induction entries with
  | nil => exact .slnil
  | cons entry rest ih =>
    rw [latest]
    split
    · exact ih.cons entry
    · exact ih.cons_cons entry

theorem nodup_latest (entries : List (String × Binding)) : ((latest entries).map Prod.fst).Nodup := by
  induction entries with
  | nil => exact .nil
  | cons entry rest ih =>
    rw [latest]
    split
    · exact ih
    · next hnew =>
      refine List.nodup_cons.2 ⟨fun hmem => hnew ?_, ih⟩
      obtain ⟨other, hother, hattr⟩ := List.mem_map.1 hmem
      exact List.any_eq_true.2 ⟨other, (latest_sublist rest).subset hother, beq_iff_eq.2 hattr⟩

theorem sorted_assemble (widgetClass : WidgetClass) (identifier : Option String)
    (children notes : List Blueprint) (bindings : List (String × Binding)) :
    (assemble widgetClass identifier children notes bindings).Sorted where
  distinct := nodup_latest _
  assigns _ hentry := of_decide_eq_true (List.mem_filter.1 ((latest_sublist _).subset hentry)).2
  notifies _ hentry := of_decide_eq_true (List.mem_filter.1 hentry).2

/-- Attributes with a notify do not follow what the names given stand for: they get a default, or what
is tied to them does not read these names. -/
def Quiet (names : List String) (b : Blueprint) : Prop :=
  ∀ entry ∈ b.assignments, entry.1 ∈ b.notifiers.map Prod.fst → ∀ name ∈ entry.2.reads, name ∉ names

instance (names : List String) (b : Blueprint) : Decidable (b.Quiet names) :=
  inferInstanceAs (Decidable (∀ entry ∈ b.assignments, _))

end Blueprint

namespace Node

open Blueprint

variable (toolkit : Toolkit)

mutual

/-- The code of every widget and note is sorted. -/
theorem sorted_nodes : (n : Node) →
    ∀ b ∈ nodesAll (n.notes toolkit) ++ nodesAll (n.widgets toolkit), b.Sorted
  | .imports _, b, hb => by cases hb
  | .element name identifier body, b, hb => by
    simp only [widgets, notes, nodesAll, List.nil_append] at hb
    split at hb
    · rw [nodesAll, nodesAll, List.append_nil, assemble, nodes] at hb
      rcases List.mem_cons.1 hb with rfl | hb
      · exact sorted_assemble ..
      · exact sorted_nodesAll body b hb
    · cases hb
  | .metadata name identifier body, b, hb => by
    simp only [widgets, notes, nodesAll, List.append_nil] at hb
    split at hb
    · rw [nodesAll, nodesAll, List.append_nil, assemble, nodes] at hb
      rcases List.mem_cons.1 hb with rfl | hb
      · exact sorted_assemble ..
      · exact sorted_nodesAll body b hb
    · cases hb
  | .binding .., b, hb => by cases hb
  | .block body, b, hb => by
    rw [widgets, notes] at hb
    exact sorted_nodesAll body b hb
  | .comment _, b, hb => by cases hb

theorem sorted_nodesAll : (body : List Node) →
    ∀ b ∈ nodesAll (notesAll toolkit body) ++ nodesAll (widgetsAll toolkit body), b.Sorted
  | [], b, hb => by cases hb
  | n :: rest, b, hb => by
    rw [widgetsAll, notesAll, nodesAll_append, nodesAll_append] at hb
    have hfirst := sorted_nodes n b
    have hothers := sorted_nodesAll rest b
    simp only [List.mem_append] at hb hfirst hothers
    tauto

end

end Node

/-- The code of a compiled document is sorted. -/
theorem Document.sorted_compile {d : Document} {toolkit : Toolkit} {modules : Modules} {store : Store}
    {v : CompiledDocument} (h : (d.compile toolkit modules store).1 = .ok v) :
    ∀ b ∈ v.root.realized, b.Sorted := by
  obtain ⟨htree, -⟩ := Document.compile_eq_tree h
  intro b hb
  refine Node.sorted_nodesAll toolkit d.body b (List.mem_append_right _ ?_)
  rw [htree, Blueprint.nodesAll, Blueprint.nodesAll, List.append_nil]
  exact (Blueprint.realized_sublist v.root).subset hb

end ReactiveView
