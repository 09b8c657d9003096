import ReactiveView.Proofs.Component.Faces
import ReactiveView.Proofs.View.Building

/-!
This module contains that a view is made of its whole blueprint, what stands in notes apart: every
other node gets an object of its own, the identifiers stand for these objects, and every binding is
tied to the object of its node.
-/

namespace ReactiveView

/-! ### Names -/

theorem Made.get?_identify (identifiers : Namespace) (m : Made) (id : String) :
    (Made.identify identifiers m).get? id
      = if m.node.identifier = some id then some (.object m.object) else identifiers.get? id := by
  unfold Made.identify Scene.identify
  cases m.node.identifier with
  | none => rw [if_neg nofun]
  | some i =>
    rw [Table.get?_insert]
    by_cases hid : id = i
    · rw [if_pos hid, if_pos (congrArg some hid.symm)]
    · rw [if_neg hid, if_neg fun h => hid (Option.some.inj h).symm]

/-- Where no identifier is used twice it stands for the object that was made under it. -/
theorem get?_foldl_identify (ms : List Made) (identifiers : Namespace) (id : String) (v : Value)
    (hnodup : (Blueprint.identifiers (ms.map Made.node)).Nodup) :
    (ms.foldl Made.identify identifiers).get? id = some v ↔
      (∃ m ∈ ms, m.node.identifier = some id ∧ v = .object m.object) ∨
      (∀ m ∈ ms, m.node.identifier ≠ some id) ∧ identifiers.get? id = some v := by
  induction ms generalizing identifiers with
  | nil =>
    refine ⟨fun h => .inr ⟨nofun, h⟩, ?_⟩
    rintro (⟨m, hm, -⟩ | ⟨-, h⟩)
    · cases hm
    · exact h
  | cons m rest ih =>
    rw [List.map_cons, Blueprint.identifiers] at hnodup
    have hrest := hnodup.sublist ((List.sublist_cons_self ..).filterMap _)
    rw [List.foldl_cons, ih _ hrest, Made.get?_identify]
    simp only [List.mem_cons, exists_eq_or_imp, forall_eq_or_imp]
    by_cases hm : m.node.identifier = some id
    · rw [List.filterMap_cons, hm] at hnodup
      -- The identifier is used here, so no later node can take it over.
      have hother : ∀ m' ∈ rest, m'.node.identifier ≠ some id := fun m' hm' hi =>
        (List.nodup_cons.1 hnodup).1 (List.mem_filterMap.2 ⟨m'.node, List.mem_map_of_mem hm', hi⟩)
      rw [if_pos hm]
      constructor
      · rintro (⟨m', hm', hi, -⟩ | ⟨-, hv⟩)
        · exact absurd hi (hother m' hm')
        · exact .inl (.inl ⟨hm, (Option.some.inj hv).symm⟩)
      · rintro ((⟨-, hv⟩ | ⟨m', hm', hi, -⟩) | ⟨⟨hne, -⟩, -⟩)
        · exact .inr ⟨hother, hv ▸ rfl⟩
        · exact absurd hi (hother m' hm')
        · exact absurd hm hne
    · simp only [hm, if_false, false_and, false_or, ne_eq, not_false_eq_true, true_and]

namespace Scene

variable {α : Type} {s t u : Scene α} {scope : Scope} {c k : Nat}

/-! ### Tying -/

/-- The scene after a binding has been tied: signals have become tasks, and the component keeps what
stays connected. -/
def tied (s : Scene α) (owner : Nat) (network : Network) (link : Option Nat) : Scene α :=
  match link with
  | none => { s with network }.heedSignals
  | some link => { s with network }.heedSignals.update owner fun comp =>
      { comp with links := comp.links ++ [link] }

/-- What was made with the bindings of its node. -/
def code (made : List Made) : List (Made × String × Binding) :=
  made.flatMap fun m => m.node.bindings.map fun entry => (m, entry)

/-- One binding after the other is tied to an attribute of what was made; its code sees the object as
`self`. -/
inductive Ties (scope : Scope) : Scene α → List (Made × String × Binding) → Scene α → Prop
  | nil {s : Scene α} : Ties scope s [] s
  | cons {s t : Scene α} {m : Made} {attr : String} {binding : Binding} {network : Network}
      {link : Option Nat} {rest : List (Made × String × Binding)}
      (h : s.network.connect? binding m.object attr
        (scope.push (Table.ofList [("self", .object m.object)])) = some (.ok link, network))
      (hrest : Ties scope (s.tied m.owner network link) rest t) :
      Ties scope s ((m, attr, binding) :: rest) t

theorem Ties.append {xs ys : List (Made × String × Binding)} (h : Ties scope s xs t)
    (h' : Ties scope t ys u) : Ties scope s (xs ++ ys) u := by
  induction h with
  | nil => exact h'
  | cons h _ ih => exact .cons h (ih h')

/-- The same components with the same parts. -/
structure Keeps (s t : Scene α) : Prop where
  parts : t.parts? = s.parts?
  count : t.components.size = s.components.size

instance : Std.Refl (@Keeps α) := ⟨fun _ => ⟨rfl, rfl⟩⟩

instance : IsTrans (Scene α) Keeps where
  trans _ _ _ h h' := ⟨h'.parts.trans h.parts, h'.count.trans h.count⟩

theorem keeps_announceHint (s : Scene α) (c : Nat) : s.Keeps (s.announceHint c) := by
  unfold announceHint
  split
  · exact Std.Refl.refl s
  · split
    · split
      · exact ⟨rfl, rfl⟩
      · exact Std.Refl.refl s
    · exact Std.Refl.refl s

theorem keeps_heedSignals (s : Scene α) (network : Network) :
    s.Keeps { s with network }.heedSignals := by
  have hstart : s.Keeps { s with network := { network with signals := [] } } := ⟨rfl, rfl⟩
  unfold heedSignals
  exact List.foldlRecOn _ _ hstart fun t ht c _ => IsTrans.trans _ _ _ ht (keeps_announceHint t c)

theorem keeps_tied (s : Scene α) (owner : Nat) (network : Network) (link : Option Nat) :
    s.Keeps (s.tied owner network link) := by
  cases link with
  | none => exact keeps_heedSignals s network
  | some link =>
    refine IsTrans.trans _ _ _ (keeps_heedSignals s network) ⟨?_, size_update ..⟩
    funext k
    refine (parts?_update ..).trans ?_
    split <;> rfl

theorem Ties.keeps {xs : List (Made × String × Binding)} (h : Ties scope s xs t) : s.Keeps t := by
  induction h with
  | nil => exact Std.Refl.refl _
  | cons _ _ ih => exact IsTrans.trans _ _ _ (keeps_tied ..) ih

mutual

theorem made_congr (h : t.parts? = s.parts?) : (b : Blueprint) → (c : Nat) → t.made b c = s.made b c
  | { children, notes, .. }, c => by
    rw [made, made, h]
    split
    · rfl
    · rw [madeAll_congr h children]

theorem madeAll_congr (h : t.parts? = s.parts?) : (bs : List Blueprint) → (cs : List Nat) →
    t.madeAll bs cs = s.madeAll bs cs
  | b :: rest, c :: more => by rw [madeAll, madeAll, made_congr h b c, madeAll_congr h rest more]
  | [], _ => by rw [madeAll, madeAll] <;> exact nofun
  | _ :: _, [] => by rw [madeAll, madeAll] <;> exact nofun

end

/-- A binding that does not fail has been tied. -/
theorem leads_tie (m : Made) (label attr : String) (binding : Binding) (s : Scene α) :
    Leads (tie m.owner label m.object (scope.push (Table.ofList [("self", .object m.object)])) attr
      binding).run s fun r t => r = .ok () → Ties scope s [(m, attr, binding)] t := by
  refine leads_run_get_bind.2 ?_
  split
  · exact leads_run_throw.2 nofun
  · next result network h =>
    refine leads_run_set_bind.2 ?_
    split
    · exact leads_run_throw.2 nofun
    · exact leads_run_pure.2 fun _ => .cons h .nil
    · exact leads_run_modify.2 fun _ => .cons h .nil

/-- What ties one list of bindings, then what ties another one. -/
theorem leads_ties_bind {x y : Tying α Unit} {xs ys : List (Made × String × Binding)} {s : Scene α}
    (hx : Leads x.run s fun r t => r = .ok () → Ties scope s xs t)
    (hy : ∀ t, s.Keeps t → Leads y.run t fun r u => r = .ok () → Ties scope t ys u) :
    Leads (x >>= fun _ => y).run s fun r t => r = .ok () → Ties scope s (xs ++ ys) t := by
  refine hx.run_bind (fun _ t ht => ?_) fun _ _ _ => nofun
  have hties := ht rfl
  exact (hy t hties.keeps).mono fun r u hu hr => hties.append (hu hr)

theorem leads_tieTo (m : Made) (s : Scene α) :
    Leads (tieTo m.owner m.node m.object scope).run s fun r t =>
      r = .ok () → Ties scope s (m.node.bindings.map fun entry => (m, entry)) t := by
  unfold tieTo
  dsimp only
  generalize m.node.bindings = entries
  induction entries generalizing s with
  | nil => exact leads_run_pure.2 fun _ => .nil
  | cons entry rest ih => exact leads_ties_bind (leads_tie m _ entry.1 entry.2 s) fun t _ => ih t

theorem leads_tieNotes (owner : Nat) (notes : List Blueprint) (objects : List ObjectRef)
    (s : Scene α) : Leads (tieNotes owner scope (notes.zip objects)).run s fun r t =>
      r = .ok () → Ties scope s (code (Made.ofNotes owner notes objects)) t := by
  unfold Made.ofNotes
  generalize notes.zip objects = pairs
  induction pairs generalizing s with
  | nil => exact leads_run_pure.2 fun _ => .nil
  | cons pair rest ih =>
    obtain ⟨note, o⟩ := pair
    exact leads_ties_bind (leads_tieTo { node := note, owner, object := o } s) fun t _ => ih t

theorem code_cons (m : Made) (rest : List Made) :
    code (m :: rest) = (m.node.bindings.map fun entry => (m, entry)) ++ code rest :=
  List.flatMap_cons

theorem code_append (xs ys : List Made) : code (xs ++ ys) = code xs ++ code ys :=
  List.flatMap_append

mutual

/-- Unless tying fails, all bindings of all nodes of which something was made are tied. -/
theorem leads_tieAll : (b : Blueprint) → (c : Nat) → (s : Scene α) →
    Leads (tieAll scope b c).run s fun r t => r = .ok () → Ties scope s (code (s.made b c)) t
  | { widgetClass, identifier, children, notes, assignments, notifiers }, c, s => by
    rw [tieAll, made]
    refine leads_run_get_bind.2 ?_
    unfold parts?
    cases s.component? c with
    | none => exact leads_run_pure.2 fun _ => .nil
    | some comp =>
      dsimp only [Option.map_some]
      let m : Made := ⟨{ widgetClass, identifier, children, notes, assignments, notifiers }, c,
        comp.object⟩
      rw [code_cons, code_append]
      refine leads_ties_bind (leads_tieTo m s) fun t ht => ?_
      refine leads_ties_bind (leads_tieNotes c notes comp.notes t) fun u hu => ?_
      rw [← madeAll_congr (hu.parts.trans ht.parts)]
      exact leads_tieChildren children comp.children u

theorem leads_tieChildren : (bs : List Blueprint) → (cs : List Nat) → (s : Scene α) →
    Leads (tieChildren scope bs cs).run s fun r t =>
      r = .ok () → Ties scope s (code (s.madeAll bs cs)) t
  | b :: rest, c :: more, s => by
    rw [tieChildren, madeAll, code_append]
    refine leads_ties_bind (leads_tieAll b c s) fun t ht => ?_
    rw [← madeAll_congr ht.parts]
    exact leads_tieChildren rest more t
  | [], _, s => leads_run_pure.2 fun _ => .nil
  | _ :: _, [], s => leads_run_pure.2 fun _ => .nil

end

/-! ### Whole views -/

variable [Scalar α]

/-- Make what a blueprint says and tie its code, before any layout is set up. -/
def construct (b : Blueprint) (scope : Scope) : Tying α View := do
  let (root, identifiers) ← modifyGet fun (s : Scene α) =>
    let (root, identifiers, s) := build b Table.empty s
    ((root, identifiers), s)
  tieAll (scope.push identifiers) b root
  pure { root, identifiers }

/-- A view is constructed before its layouts are set up. -/
theorem instantiate_eq (compiled : CompiledDocument) (context : Namespace) :
    (instantiate compiled context : Tying α View) = (do
      let scope := ((({} : Scope).push compiled.imports).push context).push builtinNames
      let view ← construct compiled.root scope
      (activate view.root).adapt fun e => .layout e
      modify fun (s : Scene α) => s.note .debug "view instantiated"
        [("root", s.label view.root), ("identifiers", toString view.identifiers.size)]
      pure view) := by
  unfold instantiate construct
  simp only [bind_assoc, pure_bind]

theorem leads_construct (b : Blueprint) (scope : Scope) (s : Scene α) :
    Leads (construct b scope).run s fun r t => ∀ view, r = .ok view →
      view.root = (build b Table.empty s).1 ∧
      view.identifiers = (build b Table.empty s).2.1 ∧
      Ties (scope.push view.identifiers) (build b Table.empty s).2.2
        (code ((build b Table.empty s).2.2.made b view.root)) t := by
  refine leads_run_modifyGet_bind.2 ?_
  refine (leads_tieAll b _ _).run_bind (fun _ t ht => leads_run_pure.2 ?_) fun _ _ _ => nofun
  rintro view ⟨⟩
  exact ⟨rfl, rfl, ht rfl⟩

/-- Every node of a document that is in no note is realized, and nothing else is: a widget or note is
made of it, with a new object of its class, its identifier stands for this object, and all its bindings
are tied to it. This is the whole document just if notes hold nothing but code. -/
theorem realized_of_construct {d : Document} {toolkit : Toolkit} {modules : Modules} {store : Store}
    {v : CompiledDocument} (hcompile : (d.compile toolkit modules store).1 = .ok v) {scope : Scope}
    {view : View} (h : (construct v.root scope).run.run s = (.ok view, t)) :
    (t.made v.root view.root).map Made.node = v.root.realized ∧
      (t.made v.root view.root).map (·.object.id)
        = List.range' s.network.store.objects.size v.root.realized.length ∧
      (∀ m ∈ t.made v.root view.root, m.object.className = m.node.widgetClass.name) ∧
      t.ownedObjects = s.ownedObjects ++ (t.made v.root view.root).map (·.object.id) ∧
      (∀ id o, view.identifiers.get? id = some o ↔
        ∃ m ∈ t.made v.root view.root, m.node.identifier = some id ∧ o = .object m.object) ∧
      Ties (scope.push view.identifiers) (build v.root Table.empty s).2.2
        (code (t.made v.root view.root)) t ∧
      (v.root.realized.length = v.root.count ↔ v.root.BareNotes) ∧
      (v.root.BareNotes → ∀ id ∈ Part.identifiers d.parts,
        ∃ m ∈ t.made v.root view.root, m.node.identifier = some id) := by
  obtain ⟨hperm, hnodup⟩ := Document.identifiers_compile hcompile
  obtain ⟨hroot, hidentifiers, hties⟩ := leads_of_run_eq h (leads_construct v.root scope s) view rfl
  obtain ⟨hc, -, hparts, hbuilds⟩ := build_spec v.root Table.empty s
  have hmade := made_congr hties.keeps.parts v.root view.root
  have hfound := hbuilds.realizes t fun k _ _ => congrFun hties.keeps.parts k
  rw [← hc, ← hroot, ← hidentifiers] at hfound
  refine ⟨hfound.map_node, hfound.map_id, hfound.fits, ?_, fun id o => ?_, hmade ▸ hties, ?_,
    fun hbare id hid => ?_⟩
  · have hold (k : Nat) (hk : k ∈ List.range s.components.size) : t.ownedBy k = s.ownedBy k := by
      unfold ownedBy
      rw [hties.keeps.parts, hparts k (List.mem_range.1 hk)]
    rw [ownedObjects_eq, ownedObjects_eq, hties.keeps.count, ← hfound.owned, hroot, hc,
      ← List.flatMap_congr hold, ← List.flatMap_append, List.range_eq_range', List.range_eq_range']
    obtain ⟨n, hn⟩ := Nat.exists_eq_add_of_le hbuilds.le
    rw [hn, Nat.add_sub_cancel_left, ← List.range'_append_1, Nat.zero_add]
  · rw [hfound.names, get?_foldl_identify _ _ _ _ ?_, Table.get?_empty]
    · simp
    · rw [hfound.map_node]
      exact hnodup.sublist ((Blueprint.realized_sublist v.root).filterMap _)
  · rw [← Blueprint.realized_eq_nodes_iff, ← Blueprint.length_nodes]
    exact ⟨(Blueprint.realized_sublist v.root).eq_of_length, congrArg List.length⟩
  · have hnode := hperm.symm.subset hid
    rw [← (Blueprint.realized_eq_nodes_iff v.root).2 hbare, ← hfound.map_node] at hnode
    obtain ⟨b, hb, hidentifier⟩ := List.mem_filterMap.1 hnode
    obtain ⟨m, hm, rfl⟩ := List.mem_map.1 hb
    exact ⟨m, hm, hidentifier⟩

/-- A scene with the objects of the modules of the sample document. -/
def sampleModels : Scene ℚ where
  network := { store := (Document.sample.compile Toolkit.common Document.sampleModules {}).2.store }

/-- What the code of a view sees besides the identifiers, if there is no context. -/
def sampleScope (v : CompiledDocument) : Scope :=
  ((({} : Scope).push v.imports).push Table.empty).push builtinNames

theorem realized_of_construct_sample :
    ∃ v view t, (Document.sample.compile Toolkit.common Document.sampleModules {}).1 = .ok v ∧
      (construct v.root (sampleScope v)).run.run sampleModels = (.ok view, t) ∧
      t.ownedObjects.length = v.root.count ∧
      ∃ m ∈ t.made v.root view.root, m.node.identifier = some "second" := by
  have hok : (Document.sample.compile Toolkit.common Document.sampleModules {}).1.toOption.any
      (fun v => decide (v.root.realized.length = v.root.count) &&
        ((construct v.root (sampleScope v)).run.run sampleModels).1.isOk) = true := by
    decide +kernel
  cases hv : (Document.sample.compile Toolkit.common Document.sampleModules {}).1 with
  | error e =>
    rw [hv] at hok
    cases hok
  | ok v =>
    rw [hv] at hok
    obtain ⟨hall, hmade⟩ := Bool.and_eq_true_iff.1 hok
    rcases hrun : (construct v.root (sampleScope v)).run.run sampleModels with ⟨_ | view, t⟩
    · rw [hrun] at hmade
      cases hmade
    · obtain ⟨hnodes, hids, -, howned, -, -, hbare, hidentified⟩ := realized_of_construct hv hrun
      refine ⟨v, view, t, rfl, hrun, ?_, hidentified (hbare.1 (of_decide_eq_true hall)) _ ?_⟩
      · rw [howned, hids, List.length_append, List.length_range', of_decide_eq_true hall]
        exact Nat.zero_add _
      · decide +kernel

/-- A window with a note that has a note itself. -/
def nestedNotes : Document where
  body := [.element "Window" (some "w") [.metadata "Hint" (some "a") [.metadata "Hint" (some "b") []]]]

/-- Of a note in a note nothing is made: the objects are fewer than the nodes, and the identifier
stands for nothing. -/
theorem not_realized_of_construct : ¬ ∀ (d : Document) (v : CompiledDocument) (s t : Scene ℚ)
    (scope : Scope) (view : View), (d.compile Toolkit.common Table.empty {}).1 = .ok v →
      (construct v.root scope).run.run s = (.ok view, t) →
      t.ownedObjects.length = s.ownedObjects.length + v.root.count ∧
        ∀ id ∈ Part.identifiers d.parts, ∃ o, view.identifiers.get? id = some (.object o) := by
  intro h
  have hok : (nestedNotes.compile Toolkit.common Table.empty {}).1.toOption.any (fun v =>
      ((construct v.root {}).run.run ({} : Scene ℚ)).1.toOption.any fun view =>
        !view.identifiers.contains "b") = true := by
    decide +kernel
  cases hv : (nestedNotes.compile Toolkit.common Table.empty {}).1 with
  | error e =>
    rw [hv] at hok
    cases hok
  | ok v =>
    simp only [hv, Except.toOption, Option.any_some] at hok
    rcases hrun : (construct v.root {}).run.run ({} : Scene ℚ) with ⟨_ | view, t⟩
    · rw [hrun] at hok
      cases hok
    · obtain ⟨-, hbound⟩ := h nestedNotes v {} t {} view hv hrun
      obtain ⟨o, ho⟩ := hbound "b" (by decide +kernel)
      simp only [hrun, Option.any_some, Table.contains, ho, Option.isSome_some] at hok
      cases hok

end Scene

end ReactiveView
