import ReactiveView.Proofs.Document.Tree
import ReactiveView.Proofs.Effect.Deciding

/-!
This module contains when a visit of a part succeeds, and what it does then: what the widget around
the part gains, which identifiers are used up, and what the imports bind.
-/

namespace ReactiveView

variable {toolkit : Toolkit} {modules : Modules} {c c' c'' : Compilation} {ps qs : List Part}
  {name attr code : String} {identifier around : Option String} {p : Blueprint}

/-! ### What a widget gains -/

/-- Let the last entry of a list take the place of an earlier one of its attribute. -/
def supersede (entries : List (String × Binding)) (entry : String × Binding) :
    List (String × Binding) :=
  (entries.filter fun e => e.1 != entry.1) ++ [entry]

/-- What is assigned one by one comes to the latest, behind what is left of the entries before. -/
theorem foldl_supersede (before entries : List (String × Binding)) :
    entries.foldl supersede before
      = (before.filter fun e => !entries.any (·.1 == e.1)) ++ latest entries := by
  induction entries generalizing before with
  | nil =>
    rw [List.foldl_nil, latest, List.append_nil]
    exact (List.filter_eq_self.2 fun _ _ => rfl).symm
  | cons entry rest ih =>
    rw [List.foldl_cons, ih, supersede, List.filter_append, List.filter_filter, latest]
    have hbefore : (before.filter fun e => !rest.any (·.1 == e.1) && e.1 != entry.1)
        = before.filter fun e => !(entry :: rest).any (·.1 == e.1) := by
      refine List.filter_congr fun e _ => ?_
      rw [List.any_cons, Bool.not_or, Bool.and_comm, bne, BEq.comm]
    rw [hbefore, List.append_assoc]
    by_cases h : rest.any (·.1 == entry.1) = true <;> simp [h]

namespace Blueprint

/-- A widget or note with more in its body. -/
def gain (p : Blueprint) (children notes : List Blueprint) (bindings : List (String × Binding)) :
    Blueprint :=
  { p with
    children := p.children ++ children
    notes := p.notes ++ notes
    assignments := (bindings.filter (·.2.kind ≠ .notify)).foldl supersede p.assignments
    notifiers := p.notifiers ++ bindings.filter (·.2.kind = .notify) }

theorem gain_nil (p : Blueprint) : p.gain [] [] [] = p := by
  cases p
  simp [gain]

theorem gain_gain (p : Blueprint) (children children' notes notes' : List Blueprint)
    (bindings bindings' : List (String × Binding)) :
    (p.gain children notes bindings).gain children' notes' bindings'
      = p.gain (children ++ children') (notes ++ notes') (bindings ++ bindings') := by
  simp [gain, List.filter_append, List.foldl_append]

theorem gain_children (p : Blueprint) (children : List Blueprint) :
    p.gain children [] [] = { p with children := p.children ++ children } := by
  simp [gain]

theorem gain_notes (p : Blueprint) (notes : List Blueprint) :
    p.gain [] notes [] = { p with notes := p.notes ++ notes } := by
  simp [gain]

theorem gain_binding (p : Blueprint) (attr : String) (binding : Binding) :
    p.gain [] [] [(attr, binding)] = p.addBinding attr binding := by
  unfold addBinding
  split
  · next h => simp [gain, h]
  · next h => simp [gain, h, supersede]

/-- A new widget or note gains what is in its body. -/
theorem gain_new (widgetClass : WidgetClass) (identifier : Option String)
    (children notes : List Blueprint) (bindings : List (String × Binding)) :
    ({ widgetClass, identifier } : Blueprint).gain children notes bindings
      = assemble widgetClass identifier children notes bindings := by
  simp [gain, assemble, foldl_supersede]

end Blueprint

/-! ### What a visit does to the compilation -/

/-- Bind names one after the other. -/
def bindAll (names : Namespace) (symbols : List (String × Value)) : Namespace :=
  symbols.foldl (fun names entry => names.insert entry.1 entry.2) names

theorem bindAll_append (names : Namespace) (xs ys : List (String × Value)) :
    bindAll names (xs ++ ys) = bindAll (bindAll names xs) ys :=
  List.foldl_append

namespace Compilation

/-- A compilation after the parts were visited. The root is left out. -/
structure Visited (modules : Modules) (c : Compilation) (ps : List Part) (c' : Compilation) :
    Prop where
  /-- Their identifiers are used up. -/
  identifiers : c'.identifiers = (Part.identifiers ps).reverse ++ c.identifiers
  /-- Their imports made objects. -/
  store : c'.store = Import.storeAfterAll modules c.store (Part.imported ps)
  /-- Their imports bound names. -/
  imports : c'.imports
    = bindAll c.imports (Import.symbolsAll modules c.store (Part.imported ps))

/-- The parts can be visited: each is sound, and no identifier comes to be used twice. -/
def Fits (toolkit : Toolkit) (modules : Modules) (c : Compilation) (ps : List Part) : Prop :=
  (∀ p ∈ ps, p.Sound toolkit modules) ∧
    ((Part.identifiers ps).reverse ++ c.identifiers).Nodup

theorem Visited.refl (modules : Modules) (c : Compilation) : Visited modules c [] c :=
  ⟨rfl, rfl, rfl⟩

theorem Visited.trans (h : Visited modules c ps c') (h' : Visited modules c' qs c'') :
    Visited modules c (ps ++ qs) c'' where
  identifiers := by
    rw [h'.identifiers, h.identifiers, Part.identifiers_append, List.reverse_append,
      List.append_assoc]
  store := by
    rw [h'.store, h.store, Part.imported_append]
    exact List.foldl_append.symm
  imports := by
    rw [h'.imports, h.imports, h.store, Part.imported_append, Import.symbolsAll_append,
      bindAll_append]

theorem Fits.nodup (h : Fits toolkit modules c ps) (hvisited : Visited modules c ps c') :
    c'.identifiers.Nodup := by
  rw [hvisited.identifiers]
  exact h.2

theorem Fits.of_append (qs : List Part) (h : Fits toolkit modules c (ps ++ qs)) :
    Fits toolkit modules c ps := by
  obtain ⟨hsound, hnodup⟩ := h
  rw [Part.identifiers_append, List.reverse_append, List.append_assoc] at hnodup
  exact ⟨(List.forall_mem_append.1 hsound).1, (List.nodup_append.1 hnodup).2.1⟩

/-- After some parts were visited, more can be just if they could be visited together. -/
theorem Visited.fits_iff (h : Visited modules c ps c') (hps : Fits toolkit modules c ps) :
    Fits toolkit modules c' qs ↔ Fits toolkit modules c (ps ++ qs) := by
  unfold Fits
  rw [List.forall_mem_append, Part.identifiers_append, List.reverse_append, List.append_assoc,
    h.identifiers]
  exact ⟨fun hqs => ⟨⟨hps.1, hqs.1⟩, hqs.2⟩, fun hboth => ⟨hboth.1.2, hboth.2⟩⟩

/-! ### One step -/

theorem succeedsIff_bindNames (module : String) (symbols : Namespace) (names : List ImportName)
    (c : Compilation) :
    SucceedsIff (bindNames module symbols names) c
      (∀ n ∈ names, ∃ v, symbols.get? n.name = some v)
      (fun _ c' => c' = { c with
        imports := bindAll c.imports
          (names.filterMap fun n => (symbols.get? n.name).map fun v => (n.boundName, v)) }) := by
  induction names generalizing c with
  | nil => exact succeedsIff_pure nofun rfl
  | cons n rest ih =>
    rw [bindNames]
    cases hv : symbols.get? n.name with
    | none =>
      refine succeedsIff_throw fun h => ?_
      obtain ⟨v, hv'⟩ := h n List.mem_cons_self
      exact nomatch hv.symm.trans hv'
    | some v =>
      refine succeedsIff_modify_bind.2 ((ih _).mono ?_ ?_)
      · rw [List.forall_mem_cons]
        exact ⟨fun h => ⟨⟨v, hv⟩, h⟩, And.right⟩
      · rintro - - c' rfl
        rw [List.filterMap_cons, hv]
        rfl

theorem succeedsIff_runImport (modules : Modules) (i : Import) (c : Compilation) :
    SucceedsIff (runImport modules i) c (i.Resolves modules)
      (fun _ c' => c'.root = c.root ∧ c'.identifiers = c.identifiers ∧
        c'.store = i.storeAfter modules c.store ∧
        c'.imports = bindAll c.imports (i.symbols modules c.store)) := by
  unfold runImport Import.Resolves Import.storeAfter Import.symbols
  cases hsymbols : modules.get? i.module with
  | none =>
    refine succeedsIff_throw ?_
    rintro ⟨symbols, ⟨⟩, -⟩
  | some symbols =>
    dsimp only
    have hresolves : (∀ n ∈ i.names, ∃ v, symbols.get? n.name = some v) ↔
        ∃ symbols', some symbols = some symbols' ∧
          ∀ n ∈ i.names, ∃ v, symbols'.get? n.name = some v := by
      refine ⟨fun h => ⟨symbols, rfl, h⟩, ?_⟩
      rintro ⟨_, ⟨⟩, hnames⟩
      exact hnames
    refine SucceedsIff.mono ?_ hresolves fun _ _ _ h => h
    split
    · next hempty =>
      have hnames : ∀ n ∈ i.names, ∃ v, symbols.get? n.name = some v := by
        intro n hn
        rw [List.isEmpty_iff.1 hempty] at hn
        exact absurd hn List.not_mem_nil
      refine SucceedsIff.bind (succeedsIff_modify
        (Q := fun _ c' => c'.root = c.root ∧ c'.identifiers = c.identifiers ∧
          c'.store = (c.store.create i.module .frozen symbols).2 ∧
          c'.imports = bindAll c.imports
            [(i.boundAs.getD i.module, .object (c.store.create i.module .frozen symbols).1)])
        hnames ⟨rfl, rfl, rfl, rfl⟩) id ?_
      exact fun _ _ c' hc' => succeedsIff_modify hnames hc'
    · refine (succeedsIff_bindNames i.module symbols i.names c).bind id ?_
      rintro hnames - c' rfl
      exact succeedsIff_modify hnames ⟨rfl, rfl, rfl, rfl⟩

theorem succeedsIff_begin (toolkit : Toolkit) (role : Role) (name : String)
    (identifier : Option String) (c : Compilation) :
    SucceedsIff (begin toolkit role name identifier) c
      (toolkit.Has role name ∧ ∀ id ∈ identifier, id ∉ c.identifiers)
      (fun b c' => (∃ widgetClass, toolkit.get? name = some widgetClass ∧
          b = { widgetClass, identifier }) ∧
        c' = { c with identifiers := identifier.toList ++ c.identifiers }) := by
  unfold begin Toolkit.Has
  cases hclass : toolkit.get? name with
  | none =>
    refine succeedsIff_throw ?_
    rintro ⟨⟨widgetClass, h, -⟩, -⟩
    exact nomatch h
  | some widgetClass =>
    dsimp only
    split
    · next hrole =>
      refine succeedsIff_throw_bind ?_
      rintro ⟨⟨_, ⟨⟩, h⟩, -⟩
      exact hrole h
    · next hrole =>
      have hhas : ∃ widgetClass', some widgetClass = some widgetClass' ∧ widgetClass'.role = role :=
        ⟨widgetClass, rfl, Decidable.not_not.1 hrole⟩
      cases identifier with
      | none =>
        exact succeedsIff_pure ⟨hhas, nofun⟩ ⟨⟨widgetClass, rfl, rfl⟩, rfl⟩
      | some id =>
        refine SucceedsIff.mono ?_ ⟨fun h => ⟨hhas, fun _ hid => Option.mem_some.1 hid ▸ h⟩,
          fun h => h.2 id rfl⟩ fun _ _ _ h => h
        dsimp only
        refine succeedsIff_get_bind.2 ?_
        split
        · next h => exact succeedsIff_throw_bind fun hnew => hnew (List.contains_iff_mem.1 h)
        · next h =>
          exact succeedsIff_modify_bind.2 (succeedsIff_pure (fun hmem =>
            h (List.contains_iff_mem.2 hmem)) ⟨⟨widgetClass, rfl, rfl⟩, rfl⟩)

theorem accepts_iff (kind : BindingKind) (code : String) :
    kind.Accepts code ↔ ∃ binding, Binding.compile kind code = .ok binding := by
  unfold Binding.compile BindingKind.Accepts
  cases kind with
  | default => cases Expr.parse code <;> simp [Except.map]
  | bind => cases Expr.parse code <;> simp [Except.map]
  | notify => cases Statement.parseAll code <;> simp [Except.map]
  | delegate =>
    dsimp only
    constructor
    · rintro ⟨object, attr, h⟩
      rw [h]
      exact ⟨_, rfl⟩
    · split
      · next object attr h => exact fun _ => ⟨object, attr, h⟩
      · exact fun ⟨_, h⟩ => nomatch h
      · exact fun ⟨_, h⟩ => nomatch h

theorem succeedsIff_addBinding (p : Blueprint) (kind : BindingKind) (attr code : String)
    (c : Compilation) :
    SucceedsIff (addBinding p kind attr code) c
      (p.widgetClass.declares attr = true ∧ kind.Accepts code)
      (fun p' c' => p' = p.gain [] [] (Node.binding kind attr code).bindings ∧ c' = c) := by
  unfold addBinding Node.bindings
  rw [accepts_iff]
  cases p.widgetClass.declares attr with
  | false => exact succeedsIff_throw_bind fun h => nomatch h.1
  | true =>
    cases Binding.compile kind code with
    | error e =>
      refine succeedsIff_throw ?_
      rintro ⟨-, _, h⟩
      exact nomatch h
    | ok compiled =>
      exact succeedsIff_pure ⟨rfl, compiled, rfl⟩ ⟨(p.gain_binding attr compiled).symm, rfl⟩

/-! ### Visits -/

/-- A widget or note is begun if the part it stands for can be visited. -/
theorem succeedsIff_begin_part {role : Role} {part : Part}
    (hsound : part.Sound toolkit modules ↔ toolkit.Has role name)
    (hidentifier : part.node.identifier? = identifier) (himport : part.node.import? = none)
    (hc : c.identifiers.Nodup) :
    SucceedsIff (begin toolkit role name identifier) c (Fits toolkit modules c [part])
      (fun b c' => (∃ widgetClass, toolkit.get? name = some widgetClass ∧
          b = { widgetClass, identifier }) ∧
        Visited modules c [part] c' ∧ c'.root = c.root) := by
  have hidentifiers : Part.identifiers [part] = identifier.toList := by
    rw [Part.identifiers, List.filterMap_cons, hidentifier]
    cases identifier <;> rfl
  have himported : Part.imported [part] = [] := by
    rw [Part.imported, List.filterMap_cons, himport]
    rfl
  refine (succeedsIff_begin toolkit role name identifier c).mono ?_ ?_
  · unfold Fits
    rw [List.forall_mem_singleton, hsound, hidentifiers]
    cases identifier <;> simp [hc]
  · rintro - b c' ⟨hb, rfl⟩
    refine ⟨hb, ⟨?_, ?_, ?_⟩, rfl⟩
    · rw [hidentifiers]
      cases identifier <;> rfl
    · rw [himported]
      rfl
    · rw [himported]
      rfl

/-- What runs inside of a widget visits some parts and adds to the widget. -/
def Adds (toolkit : Toolkit) (modules : Modules)
    (x : Option Blueprint → Compiling (Option Blueprint)) (parts : Option String → List Part)
    (children notes : List Blueprint) (bindings : List (String × Binding)) : Prop :=
  ∀ ⦃p : Blueprint⦄ ⦃name : String⦄ ⦃c : Compilation⦄, toolkit.get? name = some p.widgetClass →
    c.identifiers.Nodup →
    SucceedsIff (x (some p)) c (Fits toolkit modules c (parts (some name)))
      (fun r c' => r = some (p.gain children notes bindings) ∧
        Visited modules c (parts (some name)) c' ∧ c'.root = c.root)

/-- A widget or note with its body, and what is done with it. -/
theorem Adds.built {role : Role} {body : List Node} {β : Type} {C : Prop}
    {Q : β → Compilation → Prop} (part : Part) (k : Blueprint → Compiling β)
    (hbody : Adds toolkit modules (visitAll toolkit modules · body) (Node.partsAll · body)
      (Node.widgetsAll toolkit body) (Node.notesAll toolkit body) (Node.bindingsAll body))
    (hsound : part.Sound toolkit modules ↔ toolkit.Has role name)
    (hidentifier : part.node.identifier? = identifier) (himport : part.node.import? = none)
    (hc : c.identifiers.Nodup)
    (hC : C → Fits toolkit modules c (part :: Node.partsAll (some name) body))
    (hk : Fits toolkit modules c (part :: Node.partsAll (some name) body) →
      ∀ widgetClass c', toolkit.get? name = some widgetClass →
        Visited modules c (part :: Node.partsAll (some name) body) c' → c'.root = c.root →
        SucceedsIff (k (.assemble widgetClass identifier (Node.widgetsAll toolkit body)
          (Node.notesAll toolkit body) (Node.bindingsAll body))) c' C Q) :
    SucceedsIff (begin toolkit role name identifier >>= fun b =>
      visitAll toolkit modules (some b) body >>= fun r => k (r.getD b)) c C Q := by
  refine (succeedsIff_begin_part hsound hidentifier himport hc).bind
    (fun h => Fits.of_append (Node.partsAll (some name) body) (hC h)) ?_
  rintro hfits _ c₁ ⟨⟨widgetClass, hclass, rfl⟩, hvisited, hroot⟩
  -- Nothing is in the new widget yet, so that all that is in it afterwards is from its body.
  refine (hbody (p := { widgetClass, identifier }) hclass (hfits.nodup hvisited)).bind
    (fun h => (hvisited.fits_iff hfits).2 (hC h)) ?_
  rintro hfits' _ c₂ ⟨rfl, hvisited', hroot'⟩
  rw [Option.getD_some, Blueprint.gain_new]
  exact hk ((hvisited.fits_iff hfits).1 hfits') widgetClass c₂ hclass (hvisited.trans hvisited')
    (hroot'.trans hroot)

mutual

theorem adds_visit (toolkit : Toolkit) (modules : Modules) : (n : Node) →
    Adds toolkit modules (visit toolkit modules · n) n.parts (n.widgets toolkit)
      (n.notes toolkit) n.bindings
  | .imports i => by
    intro p name c hname hc
    simp only [visit]
    refine (succeedsIff_runImport modules i c).bind (fun h => h.1 _ List.mem_cons_self) ?_
    rintro hresolves - c' ⟨hroot, hidentifiers, hstore, himports⟩
    refine succeedsIff_pure ⟨List.forall_mem_singleton.2 hresolves, hc⟩ ⟨?_, ⟨?_, ?_, ?_⟩, hroot⟩
    · exact congrArg some p.gain_nil.symm
    · exact hidentifiers
    · exact hstore
    · exact himports.trans (congrArg (bindAll c.imports) (List.append_nil _).symm)
  | .element name' identifier body => by
    intro p name c hname hc
    simp only [visit, Node.parts]
    refine (Adds.built ⟨some name, .element name' identifier body⟩
      (fun b => pure (some { p with children := p.children ++ [b] }))
      (adds_visitAll toolkit modules body) Iff.rfl rfl rfl hc id ?_ :)
    intro hfits widgetClass c' hclass hvisited hroot
    refine succeedsIff_pure hfits ⟨?_, hvisited, hroot⟩
    simp only [Node.widgets, Node.notes, Node.bindings, hclass]
    exact congrArg some (p.gain_children _).symm
  | .metadata name' identifier body => by
    intro p name c hname hc
    simp only [visit, Node.parts]
    refine (Adds.built ⟨some name, .metadata name' identifier body⟩
      (fun b => pure (some { p with notes := p.notes ++ [b] }))
      (adds_visitAll toolkit modules body) ?_ rfl rfl hc id ?_ :)
    · exact ⟨And.right, fun h => ⟨Option.some_ne_none _, h⟩⟩
    intro hfits widgetClass c' hclass hvisited hroot
    refine succeedsIff_pure hfits ⟨?_, hvisited, hroot⟩
    simp only [Node.widgets, Node.notes, Node.bindings, hclass]
    exact congrArg some (p.gain_notes _).symm
  | .binding kind attr code => by
    intro p name c hname hc
    simp only [visit]
    have hsound : Fits toolkit modules c [⟨some name, .binding kind attr code⟩] ↔
        p.widgetClass.declares attr = true ∧ kind.Accepts code := by
      refine ⟨fun h => ?_, fun h => ⟨List.forall_mem_singleton.2 ⟨name, _, rfl, hname, h⟩, hc⟩⟩
      obtain ⟨_, widgetClass, ⟨⟩, hclass, hboth⟩ := h.1 _ List.mem_cons_self
      rw [hname] at hclass
      obtain rfl := Option.some.inj hclass
      exact hboth
    refine (succeedsIff_addBinding p kind attr code c).bind hsound.1 ?_
    rintro h _ _ ⟨rfl, rfl⟩
    exact succeedsIff_pure (hsound.2 h) ⟨rfl, ⟨rfl, rfl, rfl⟩, rfl⟩
  | .block body => by
    intro p name c hname hc
    simp only [visit, Node.parts, Node.widgets, Node.notes, Node.bindings]
    exact adds_visitAll toolkit modules body hname hc
  | .comment _ => by
    intro p name c hname hc
    simp only [visit]
    exact succeedsIff_pure ⟨nofun, hc⟩ ⟨congrArg some p.gain_nil.symm, .refl modules c, rfl⟩

theorem adds_visitAll (toolkit : Toolkit) (modules : Modules) : (body : List Node) →
    Adds toolkit modules (visitAll toolkit modules · body) (Node.partsAll · body)
      (Node.widgetsAll toolkit body) (Node.notesAll toolkit body) (Node.bindingsAll body)
  | [] => by
    intro p name c hname hc
    simp only [visitAll]
    exact succeedsIff_pure ⟨nofun, hc⟩ ⟨congrArg some p.gain_nil.symm, .refl modules c, rfl⟩
  | n :: rest => by
    intro p name c hname hc
    simp only [visitAll]
    refine (adds_visit toolkit modules n hname hc).bind (fun h => h.of_append _) ?_
    rintro hfits _ c' ⟨rfl, hvisited, hroot⟩
    refine (adds_visitAll toolkit modules rest (p := p.gain ..) hname
      (hfits.nodup hvisited)).mono (hvisited.fits_iff hfits) ?_
    rintro - _ c'' ⟨rfl, hvisited', hroot'⟩
    exact ⟨congrArg some (p.gain_gain ..), hvisited.trans hvisited', hroot'.trans hroot⟩

end

end Compilation

end ReactiveView
