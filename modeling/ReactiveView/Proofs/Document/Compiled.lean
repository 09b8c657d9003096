import ReactiveView.Proofs.Document.Acceptance

/-!
This module contains that the compiled document is the tree that the document stands for, with just
as many widgets and notes as the document has, and with the names that its imports bring in.
-/

namespace ReactiveView

variable {toolkit : Toolkit} {modules : Modules}

/-! ### Counting what is built -/

namespace Blueprint

theorem countAll_append (xs ys : List Blueprint) : countAll (xs ++ ys) = countAll xs + countAll ys := by
  induction xs with
  | nil => rw [List.nil_append, countAll, Nat.zero_add]
  | cons x xs ih => rw [List.cons_append, countAll, countAll, ih, Nat.add_assoc]

theorem count_assemble (widgetClass : WidgetClass) (identifier : Option String)
    (children notes : List Blueprint) (bindings : List (String × Binding)) :
    (assemble widgetClass identifier children notes bindings).count
      = 1 + countAll children + countAll notes := by
  rw [assemble, count]

end Blueprint

namespace Node

open Blueprint (countAll countAll_append count_assemble)

mutual

/-- Every element and note among sound parts is built once. -/
theorem countAll_widgets : (n : Node) → (around : Option String) →
    (∀ p ∈ n.parts around, p.Sound toolkit modules) →
    countAll (n.widgets toolkit) + countAll (n.notes toolkit)
      = (n.parts around).countP (·.node.isBuilt)
  | .imports _, _, _ => rfl
  | .element name identifier body, around, h => by
    obtain ⟨widgetClass, hclass, -⟩ := h _ List.mem_cons_self
    rw [parts] at h ⊢
    have ih := countAll_widgetsAll body (some name) fun p hp => h p (List.mem_cons_of_mem _ hp)
    rw [List.countP_cons_of_pos (by rfl), ← ih]
    simp only [widgets, notes, hclass, countAll, count_assemble]
    omega
  | .metadata name identifier body, around, h => by
    obtain ⟨-, widgetClass, hclass, -⟩ := h _ List.mem_cons_self
    rw [parts] at h ⊢
    have ih := countAll_widgetsAll body (some name) fun p hp => h p (List.mem_cons_of_mem _ hp)
    rw [List.countP_cons_of_pos (by rfl), ← ih]
    simp only [widgets, notes, hclass, countAll, count_assemble]
    omega
  | .binding .., _, _ => rfl
  | .block body, around, h => by
    rw [parts] at h ⊢
    rw [widgets, notes]
    exact countAll_widgetsAll body around h
  | .comment _, _, _ => rfl

theorem countAll_widgetsAll : (body : List Node) → (around : Option String) →
    (∀ p ∈ partsAll around body, p.Sound toolkit modules) →
    countAll (widgetsAll toolkit body) + countAll (notesAll toolkit body)
      = (partsAll around body).countP (·.node.isBuilt)
  | [], _, _ => rfl
  | n :: rest, around, h => by
    rw [partsAll] at h ⊢
    obtain ⟨hn, hrest⟩ := List.forall_mem_append.1 h
    rw [widgetsAll, notesAll, countAll_append, countAll_append, List.countP_append,
      ← countAll_widgets n around hn, ← countAll_widgetsAll rest around hrest]
    omega

end

mutual

/-- Outside of all elements there are no notes. -/
theorem notes_eq_nil : (n : Node) → (∀ p ∈ n.parts none, p.Sound toolkit modules) →
    n.notes toolkit = []
  | .imports _, _ => rfl
  | .element .., _ => rfl
  | .metadata .., h => absurd rfl (h _ List.mem_cons_self).1
  | .binding .., _ => rfl
  | .block body, h => by
    rw [parts] at h
    rw [notes]
    exact notesAll_eq_nil body h
  | .comment _, _ => rfl

theorem notesAll_eq_nil : (body : List Node) →
    (∀ p ∈ partsAll none body, p.Sound toolkit modules) → notesAll toolkit body = []
  | [], _ => rfl
  | n :: rest, h => by
    rw [partsAll] at h
    obtain ⟨hn, hrest⟩ := List.forall_mem_append.1 h
    rw [notesAll, notes_eq_nil n hn, notesAll_eq_nil rest hrest, List.nil_append]

end

end Node

/-! ### Looking up names -/

theorem Table.lookup_append {κ α : Type} [DecidableEq κ] (k : κ) (xs ys : List (κ × α)) :
    Table.lookup k (xs ++ ys) = (Table.lookup k xs).or (Table.lookup k ys) := by
  induction xs with
  | nil => rfl
  | cons x xs ih =>
    rw [List.cons_append, Table.lookup, Table.lookup]
    split
    · rfl
    · exact ih

/-- Of the names that are bound one after the other the last counts. -/
theorem get?_bindAll (names : Namespace) (symbols : List (String × Value)) (name : String) :
    (bindAll names symbols).get? name = (Table.lookup name symbols.reverse).or (names.get? name) := by
  induction symbols generalizing names with
  | nil => rfl
  | cons entry rest ih =>
    rw [bindAll, List.foldl_cons]
    refine (ih _).trans ?_
    rw [List.reverse_cons, Table.lookup_append, Option.or_assoc, Table.get?_insert, Table.lookup]
    split <;> rfl

/-- What a document is compiled to: its only widget at top level, with everything inside of it in the
order of the document; and the names that its imports bring in, of which later ones count. -/
theorem Document.compile_eq_tree {d : Document} {store : Store} {v : CompiledDocument}
    (h : (d.compile toolkit modules store).1 = .ok v) :
    Node.widgetsAll toolkit d.body = [v.root] ∧
      v.root.count = d.parts.countP (·.node.isBuilt) ∧
      v.imports = Table.ofList (Import.symbolsAll modules store (Part.imported d.parts)) ∧
      (∀ name, v.imports.get? name = Table.lookup name
        (Import.symbolsAll modules store (Part.imported d.parts)).reverse) ∧
      (d.compile toolkit modules store).2.store
        = Import.storeAfterAll modules store (Part.imported d.parts) := by
  obtain ⟨hformed, -, htree, himports, hstore⟩ :=
    (Compilation.succeedsIff_document toolkit modules d store).of_ok h
  refine ⟨htree, ?_, himports, fun name => ?_, hstore⟩
  · have hcount := Node.countAll_widgetsAll d.body none hformed.sound
    rwa [Node.notesAll_eq_nil d.body hformed.sound, htree] at hcount
  · rw [himports, get?_bindAll, Table.get?_empty, Option.or_none]

namespace Document

/-- A document with imports at two depths, a group, a note, and a title that is bound twice. -/
def sample : Document where
  body := [
    .comment "a window",
    .imports { module := "models", names := [{ name := "greeting" }] },
    .block [
      .element "Window" (some "main") [
        .binding .default "title" "'one'",
        .element "Label" (some "first") [.binding .bind "text" "greeting"],
        .metadata "Hint" none [
          .imports { module := "models", boundAs := some "greeting" },
          .binding .default "text" "'tip'"],
        .block [
          .element "Button" (some "second") [],
          .binding .bind "title" "'two'"],
        .binding .notify "title" "None"]]]

/-- A module with one symbol. -/
def sampleModules : Modules := Table.ofList [("models", Table.ofList [("greeting", .str "Hello")])]

theorem compile_eq_tree_sample :
    ∃ v, (sample.compile Toolkit.common sampleModules {}).1 = .ok v ∧
      Node.widgetsAll Toolkit.common sample.body = [v.root] ∧
      v.root.count = sample.parts.countP (·.node.isBuilt) ∧
      v.imports = Table.ofList (Import.symbolsAll sampleModules {} (Part.imported sample.parts)) ∧
      (∀ name, v.imports.get? name = Table.lookup name
        (Import.symbolsAll sampleModules {} (Part.imported sample.parts)).reverse) ∧
      (sample.compile Toolkit.common sampleModules {}).2.store
        = Import.storeAfterAll sampleModules {} (Part.imported sample.parts) := by
  have hok : (sample.compile Toolkit.common sampleModules {}).1.isOk = true := by decide +kernel
  cases h : (sample.compile Toolkit.common sampleModules {}).1 with
  | error e =>
    rw [h] at hok
    exact nomatch hok
  | ok v => exact ⟨v, rfl, compile_eq_tree h⟩

end Document

end ReactiveView
