import ReactiveView.Proofs.Document.Compiled

/-!
This module contains the nodes of blueprints: all of them, and those that views are made of. Of what
stands in a note nothing is made but the note itself.
-/

namespace ReactiveView

namespace Blueprint

mutual

/-- All nodes of a blueprint, those in notes included. -/
def nodes : Blueprint → List Blueprint
  | b@{ children, notes, .. } => b :: (nodesAll notes ++ nodesAll children)

/-- All nodes of several blueprints. -/
def nodesAll : List Blueprint → List Blueprint
  | [] => []
  | b :: rest => nodes b ++ nodesAll rest

end

mutual

/-- The nodes of a blueprint that are in no note, in the order in which views are built. -/
def realized : Blueprint → List Blueprint
  | b@{ children, notes, .. } => b :: (notes ++ realizedAll children)

/-- The nodes of several blueprints that are in no note. -/
def realizedAll : List Blueprint → List Blueprint
  | [] => []
  | b :: rest => realized b ++ realizedAll rest

end

/-- There is nothing inside but code. -/
def Bare (b : Blueprint) : Prop := b.children = [] ∧ b.notes = []

/-- Notes hold nothing but code. -/
def BareNotes (b : Blueprint) : Prop := ∀ n ∈ b.realized, ∀ note ∈ n.notes, note.Bare

theorem nodesAll_append (xs ys : List Blueprint) : nodesAll (xs ++ ys) = nodesAll xs ++ nodesAll ys := by
  induction xs with
  | nil => rfl
  | cons x xs ih => rw [List.cons_append, nodesAll, nodesAll, ih, List.append_assoc]

mutual

theorem length_nodes : (b : Blueprint) → b.nodes.length = b.count
  | { children, notes, .. } => by
    rw [nodes, count, List.length_cons, List.length_append, length_nodesAll notes,
      length_nodesAll children]
    omega

theorem length_nodesAll : (bs : List Blueprint) → (nodesAll bs).length = countAll bs
  | [] => rfl
  | b :: rest => by
    rw [nodesAll, countAll, List.length_append, length_nodes b, length_nodesAll rest]

end

theorem sublist_nodesAll (bs : List Blueprint) : bs.Sublist (nodesAll bs) := by
  induction bs with
  | nil => exact .slnil
  | cons b rest ih =>
    rw [nodesAll]
    obtain ⟨_, _, _, _, _, _⟩ := b
    rw [nodes]
    exact (ih.trans (List.sublist_append_right _ _)).cons_cons _

mutual

/-- What is realized is among the nodes. -/
theorem realized_sublist : (b : Blueprint) → b.realized.Sublist b.nodes
  | { children, notes, .. } => by
    rw [realized, nodes]
    exact ((sublist_nodesAll notes).append (realizedAll_sublist children)).cons_cons _

theorem realizedAll_sublist : (bs : List Blueprint) → (realizedAll bs).Sublist (nodesAll bs)
  | [] => .slnil
  | b :: rest => by
    rw [realizedAll, nodesAll]
    exact (realized_sublist b).append (realizedAll_sublist rest)

end

theorem nodesAll_eq_self_iff (bs : List Blueprint) : nodesAll bs = bs ↔ ∀ b ∈ bs, b.Bare := by
  induction bs with
  | nil => exact ⟨nofun, fun _ => rfl⟩
  | cons b rest ih =>
    obtain ⟨widgetClass, identifier, children, notes, assignments, notifiers⟩ := b
    have hone {bs : List Blueprint} (h : (nodesAll bs).length = 0) : bs = [] :=
      List.sublist_nil.1 (List.length_eq_zero_iff.1 h ▸ sublist_nodesAll bs)
    rw [nodesAll, nodes, List.cons_append, List.cons_inj_right, List.forall_mem_cons, ← ih]
    constructor
    · intro h
      have hlength := congrArg List.length h
      have hrest := (sublist_nodesAll rest).length_le
      simp only [List.length_append] at hlength
      have hchildren : children = [] := hone (by omega)
      have hnotes : notes = [] := hone (by omega)
      exact ⟨⟨hchildren, hnotes⟩, ((sublist_nodesAll rest).eq_of_length (by omega)).symm⟩
    · rintro ⟨⟨rfl, rfl⟩, hrest⟩
      exact hrest

mutual

/-- All nodes are realized just if notes hold nothing but code. -/
theorem realized_eq_nodes_iff : (b : Blueprint) → b.realized = b.nodes ↔ b.BareNotes
  | { widgetClass, identifier, children, notes, assignments, notifiers } => by
    have hchildren := realizedAll_eq_nodesAll_iff children
    have hnotes := nodesAll_eq_self_iff notes
    rw [BareNotes, realized, nodes, List.cons_inj_right, List.forall_mem_cons,
      List.forall_mem_append, ← hchildren]
    dsimp only
    constructor
    · intro h
      have hlength := congrArg List.length h
      have hle := (sublist_nodesAll notes).length_le
      have hle' := (realizedAll_sublist children).length_le
      simp only [List.length_append] at hlength
      have hbare := hnotes.1 (((sublist_nodesAll notes).eq_of_length (by omega)).symm)
      refine ⟨hbare, fun n hn note hnote => ?_, (realizedAll_sublist children).eq_of_length (by omega)⟩
      rw [(hbare n hn).2] at hnote
      cases hnote
    · rintro ⟨hbare, -, hrest⟩
      rw [hnotes.2 hbare, hrest]

theorem realizedAll_eq_nodesAll_iff : (bs : List Blueprint) → realizedAll bs = nodesAll bs ↔
    ∀ n ∈ realizedAll bs, ∀ note ∈ n.notes, note.Bare
  | [] => ⟨nofun, fun _ => rfl⟩
  | b :: rest => by
    rw [realizedAll, nodesAll, List.forall_mem_append, ← realizedAll_eq_nodesAll_iff rest]
    have hfirst := realized_eq_nodes_iff b
    unfold BareNotes at hfirst
    rw [← hfirst]
    constructor
    · intro h
      have hlength := congrArg List.length h
      have hle := (realized_sublist b).length_le
      have hle' := (realizedAll_sublist rest).length_le
      simp only [List.length_append] at hlength
      exact ⟨(realized_sublist b).eq_of_length (by omega),
        (realizedAll_sublist rest).eq_of_length (by omega)⟩
    · rintro ⟨hfirst, hrest⟩
      rw [hfirst, hrest]

end

/-- The identifiers of nodes. -/
def identifiers (bs : List Blueprint) : List String := bs.filterMap Blueprint.identifier

end Blueprint

variable {toolkit : Toolkit} {modules : Modules}

namespace Node

open Blueprint

theorem identifiers_assemble (widgetClass : WidgetClass) (identifier : Option String)
    (children notes : List Blueprint) (bindings : List (String × Binding)) :
    identifiers (Blueprint.assemble widgetClass identifier children notes bindings).nodes
      = identifier.toList ++ identifiers (nodesAll notes ++ nodesAll children) := by
  rw [Blueprint.assemble, nodes, identifiers, List.filterMap_cons]
  cases identifier <;> rfl

mutual

/-- The identifiers of the nodes are those of the document. -/
theorem identifiers_perm : (n : Node) → (around : Option String) →
    (∀ p ∈ n.parts around, p.Sound toolkit modules) →
    (identifiers (nodesAll (n.notes toolkit) ++ nodesAll (n.widgets toolkit))).Perm
      (Part.identifiers (n.parts around))
  | .imports _, _, _ => .nil
  | .element name identifier body, around, h => by
    obtain ⟨widgetClass, hclass, -⟩ := h _ List.mem_cons_self
    rw [parts] at h ⊢
    have ih := identifiersAll_perm body (some name) fun p hp => h p (List.mem_cons_of_mem _ hp)
    simp only [widgets, notes, hclass, nodesAll, List.nil_append, List.append_nil]
    rw [identifiers_assemble, Part.identifiers, List.filterMap_cons]
    cases identifier with
    | none => exact ih
    | some id => exact ih.cons id
  | .metadata name identifier body, around, h => by
    obtain ⟨-, widgetClass, hclass, -⟩ := h _ List.mem_cons_self
    rw [parts] at h ⊢
    have ih := identifiersAll_perm body (some name) fun p hp => h p (List.mem_cons_of_mem _ hp)
    simp only [widgets, notes, hclass, nodesAll, List.append_nil]
    rw [identifiers_assemble, Part.identifiers, List.filterMap_cons]
    cases identifier with
    | none => exact ih
    | some id => exact ih.cons id
  | .binding .., _, _ => .nil
  | .block body, around, h => by
    rw [parts] at h ⊢
    rw [widgets, notes]
    exact identifiersAll_perm body around h
  | .comment _, _, _ => .nil

theorem identifiersAll_perm : (body : List Node) → (around : Option String) →
    (∀ p ∈ partsAll around body, p.Sound toolkit modules) →
    (identifiers (nodesAll (notesAll toolkit body) ++ nodesAll (widgetsAll toolkit body))).Perm
      (Part.identifiers (partsAll around body))
  | [], _, _ => .nil
  | n :: rest, around, h => by
    rw [partsAll] at h ⊢
    obtain ⟨hn, hrest⟩ := List.forall_mem_append.1 h
    have hfirst := identifiers_perm n around hn
    have hothers := identifiersAll_perm rest around hrest
    rw [Part.identifiers_append]
    refine List.Perm.trans ?_ (hfirst.append hothers)
    rw [widgetsAll, notesAll, nodesAll_append, nodesAll_append]
    unfold identifiers
    rw [← List.filterMap_append]
    refine List.Perm.filterMap _ ?_
    rw [List.append_assoc, List.append_assoc]
    refine List.Perm.append_left _ ?_
    rw [← List.append_assoc, ← List.append_assoc]
    exact List.Perm.append_right _ List.perm_append_comm

end

end Node

/-- The nodes of a compiled document have the identifiers of the document, each of them once. -/
theorem Document.identifiers_compile {d : Document} {store : Store} {v : CompiledDocument}
    (h : (d.compile toolkit modules store).1 = .ok v) :
    (Blueprint.identifiers v.root.nodes).Perm (Part.identifiers d.parts) ∧
      (Blueprint.identifiers v.root.nodes).Nodup := by
  obtain ⟨hformed, -, htree, -⟩ :=
    (Compilation.succeedsIff_document toolkit modules d store).of_ok h
  have hperm := Node.identifiersAll_perm d.body none hformed.sound
  rw [Node.notesAll_eq_nil d.body hformed.sound, htree] at hperm
  simp only [Blueprint.nodesAll, List.nil_append, List.append_nil] at hperm
  exact ⟨hperm, hperm.nodup_iff.2 hformed.distinct⟩

end ReactiveView
