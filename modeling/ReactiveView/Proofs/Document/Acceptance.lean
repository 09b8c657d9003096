import ReactiveView.Proofs.Document.Visiting

/-!
This module contains that just the well-formed documents are compiled. Inside of an element a visit
adds to the element; outside of all elements it finds the root.
-/

namespace ReactiveView

variable {toolkit : Toolkit} {modules : Modules} {c c' : Compilation} {name : String}

/-! ### Elements that are in no other -/

namespace Node

mutual

/-- What is inside of a widget or note has something around it. -/
theorem countP_isTop_parts (name : String) : (n : Node) →
    (n.parts (some name)).countP Part.isTop = 0
  | .imports _ => rfl
  | .element name' _ body => by
    rw [parts, List.countP_cons_of_neg (by exact Bool.false_ne_true)]
    exact countP_isTop_partsAll name' body
  | .metadata name' _ body => by
    rw [parts, List.countP_cons_of_neg (by exact Bool.false_ne_true)]
    exact countP_isTop_partsAll name' body
  | .binding .. => rfl
  | .block body => by
    rw [parts]
    exact countP_isTop_partsAll name body
  | .comment _ => rfl

theorem countP_isTop_partsAll (name : String) : (body : List Node) →
    (partsAll (some name) body).countP Part.isTop = 0
  | [] => rfl
  | n :: rest => by
    rw [partsAll, List.countP_append, countP_isTop_parts name n, countP_isTop_partsAll name rest]

end

mutual

/-- The elements that are in no other are the widgets at top level. -/
theorem length_widgets : (n : Node) → (∀ p ∈ n.parts none, p.Sound toolkit modules) →
    (n.widgets toolkit).length = (n.parts none).countP Part.isTop
  | .imports _, _ => rfl
  | .element name _ body, h => by
    obtain ⟨widgetClass, hclass, -⟩ := h _ List.mem_cons_self
    rw [widgets, hclass, parts, List.countP_cons_of_pos (by rfl), countP_isTop_partsAll]
    rfl
  | .metadata .., h => absurd rfl (h _ List.mem_cons_self).1
  | .binding .., _ => rfl
  | .block body, h => by
    rw [parts] at h ⊢
    rw [widgets]
    exact length_widgetsAll body h
  | .comment _, _ => rfl

theorem length_widgetsAll : (body : List Node) →
    (∀ p ∈ partsAll none body, p.Sound toolkit modules) →
    (widgetsAll toolkit body).length = (partsAll none body).countP Part.isTop
  | [], _ => rfl
  | n :: rest, h => by
    rw [partsAll] at h ⊢
    obtain ⟨hn, hrest⟩ := List.forall_mem_append.1 h
    rw [widgetsAll, List.length_append, List.countP_append, length_widgets n hn,
      length_widgetsAll rest hrest]

end

end Node

/-! ### Visits at top level -/

namespace Compilation

/-- What runs at top level visits some parts, of which at most one is an element if there is no root
yet, else none, and makes its widget the root. -/
def Finds (toolkit : Toolkit) (modules : Modules) (x : Compiling (Option Blueprint))
    (parts : List Part) (widgets : List Blueprint) : Prop :=
  ∀ ⦃c : Compilation⦄, c.identifiers.Nodup →
    SucceedsIff x c
      (Fits toolkit modules c parts ∧ c.root.toList.length + parts.countP Part.isTop ≤ 1)
      (fun r c' => r = none ∧ Visited modules c parts c' ∧
        c'.root.toList = c.root.toList ++ widgets)

theorem length_root_le (c : Compilation) : c.root.toList.length ≤ 1 := by
  cases c.root with
  | none => exact Nat.zero_le 1
  | some root => exact Nat.le_refl 1

mutual

theorem finds_visit (toolkit : Toolkit) (modules : Modules) : (n : Node) →
    Finds toolkit modules (visit toolkit modules none n) (n.parts none) (n.widgets toolkit)
  | .imports i => by
    intro c hc
    simp only [visit]
    refine (succeedsIff_runImport modules i c).bind (fun h => h.1.1 _ List.mem_cons_self) ?_
    rintro hresolves - c' ⟨hroot, hidentifiers, hstore, himports⟩
    refine succeedsIff_pure
      ⟨⟨List.forall_mem_singleton.2 hresolves, hc⟩, length_root_le c⟩
      ⟨rfl, ⟨hidentifiers, hstore, ?_⟩, ?_⟩
    · exact himports.trans (congrArg (bindAll c.imports) (List.append_nil _).symm)
    · rw [hroot]
      exact (List.append_nil _).symm
  | .element name identifier body => by
    intro c hc
    have htop : ((Node.element name identifier body).parts none).countP Part.isTop = 1 := by
      rw [Node.parts, List.countP_cons_of_pos (by rfl), Node.countP_isTop_partsAll]
    simp only [visit]
    refine (Adds.built ⟨none, .element name identifier body⟩
      (fun b => do
        if (← get).root.isSome then throw (.multipleRoots name)
        modify fun c => { c with root := some b }
        pure none)
      (adds_visitAll toolkit modules body) Iff.rfl rfl rfl hc And.left ?_ :)
    intro hfits widgetClass c' hclass hvisited hroot
    -- The body has left the root alone, so that it is there just if it was there before.
    rw [htop]
    refine succeedsIff_get_bind.2 ?_
    rw [hroot]
    cases c.root with
    | some root => exact succeedsIff_throw_bind fun h => Nat.not_succ_le_self 1 h.2
    | none =>
      refine succeedsIff_modify_bind.2 (succeedsIff_pure ⟨hfits, Nat.le_refl 1⟩
        ⟨rfl, ⟨hvisited.identifiers, hvisited.store, hvisited.imports⟩, ?_⟩)
      rw [Node.widgets, hclass]
      rfl
  | .metadata .. => by
    intro c _
    simp only [visit]
    exact succeedsIff_throw fun h => (h.1.1 _ List.mem_cons_self).1 rfl
  | .binding kind attr code => by
    intro c _
    simp only [visit]
    refine succeedsIff_throw fun h => ?_
    obtain ⟨_, _, hnone, -⟩ := h.1.1 _ List.mem_cons_self
    exact nomatch hnone
  | .block body => by
    intro c hc
    simp only [visit, Node.parts, Node.widgets]
    exact finds_visitAll toolkit modules body hc
  | .comment _ => by
    intro c hc
    simp only [visit]
    exact succeedsIff_pure ⟨⟨nofun, hc⟩, length_root_le c⟩
      ⟨rfl, .refl modules c, (List.append_nil _).symm⟩

theorem finds_visitAll (toolkit : Toolkit) (modules : Modules) : (body : List Node) →
    Finds toolkit modules (visitAll toolkit modules none body) (Node.partsAll none body)
      (Node.widgetsAll toolkit body)
  | [] => by
    intro c hc
    simp only [visitAll]
    exact succeedsIff_pure ⟨⟨nofun, hc⟩, length_root_le c⟩
      ⟨rfl, .refl modules c, (List.append_nil _).symm⟩
  | n :: rest => by
    intro c hc
    simp only [visitAll, Node.partsAll, Node.widgetsAll, List.countP_append]
    refine (finds_visit toolkit modules n hc).bind
      (fun h => ⟨h.1.of_append _, Nat.le_trans (Nat.le_add_right _ _) (Nat.add_assoc .. ▸ h.2)⟩) ?_
    rintro ⟨hfits, -⟩ _ c' ⟨rfl, hvisited, hroot⟩
    refine (finds_visitAll toolkit modules rest (hfits.nodup hvisited)).mono ?_ ?_
    · rw [hvisited.fits_iff hfits, hroot, List.length_append, Node.length_widgets n hfits.1,
        Nat.add_assoc]
    · rintro - _ c'' ⟨rfl, hvisited', hroot'⟩
      refine ⟨rfl, hvisited.trans hvisited', ?_⟩
      rw [hroot', hroot, List.append_assoc]

end

/-- A whole document is compiled just if it is well-formed. The root is its only widget at top level,
and the imports bind what they bring in, one after the other. -/
theorem succeedsIff_document (toolkit : Toolkit) (modules : Modules) (d : Document)
    (store : Store) :
    SucceedsIff (document toolkit modules d) { store } (d.WellFormed toolkit modules)
      (fun v c' => d.WellFormed toolkit modules ∧ Node.widgetsAll toolkit d.body = [v.root] ∧
        v.imports = bindAll Table.empty
          (Import.symbolsAll modules store (Part.imported d.parts)) ∧
        c'.store = Import.storeAfterAll modules store (Part.imported d.parts)) := by
  have hfits : Fits toolkit modules { store } d.parts ↔
      (∀ p ∈ d.parts, p.Sound toolkit modules) ∧ (Part.identifiers d.parts).Nodup := by
    unfold Fits
    rw [List.append_nil, (List.reverse_perm _).nodup_iff]
  unfold document
  refine (finds_visitAll toolkit modules d.body (c := { store }) List.nodup_nil).bind
    (fun h => ⟨hfits.2 ⟨h.sound, h.distinct⟩, Nat.le_of_eq ?_⟩) ?_
  · exact (Nat.zero_add _).trans h.root
  rintro ⟨hparts, -⟩ _ c' ⟨rfl, hvisited, hroot⟩
  obtain ⟨hsound, hdistinct⟩ := hfits.1 hparts
  have hlength := Node.length_widgetsAll d.body hsound
  have hroots : c'.root.toList = Node.widgetsAll toolkit d.body := hroot
  refine succeedsIff_get_bind.2 ?_
  cases hc' : c'.root with
  | none =>
    refine succeedsIff_throw fun h => ?_
    rw [← hroots, hc', Option.toList_none, List.length_nil] at hlength
    exact absurd (hlength.trans h.root) (by decide)
  | some root =>
    rw [hc', Option.toList_some] at hroots
    rw [← hroots, List.length_singleton] at hlength
    have hformed : d.WellFormed toolkit modules := ⟨hsound, hdistinct, hlength.symm⟩
    exact ⟨hformed, hformed, hroots.symm, hvisited.imports, hvisited.store⟩

end Compilation

/-- A document is compiled just if it is well-formed. -/
theorem Document.compile_isOk_iff (d : Document) (toolkit : Toolkit) (modules : Modules)
    (store : Store) :
    (∃ v, (d.compile toolkit modules store).1 = .ok v) ↔ d.WellFormed toolkit modules :=
  (Compilation.succeedsIff_document toolkit modules d store).exists_ok_iff

end ReactiveView
