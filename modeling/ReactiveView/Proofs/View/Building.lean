import ReactiveView.Proofs.Component.Runs
import ReactiveView.Proofs.Document.Nodes
import ReactiveView.View.Build

/-!
This module contains that building makes every node of a blueprint that is in no note: one widget or
note each, with a new object, in the order of the nodes, and known by the identifier of its node.
-/

namespace ReactiveView

/--
A node of a blueprint, and what was made of it.
-/
structure Made where
  /-- The node. -/
  node : Blueprint
  /-- The component that is the widget, or that has the note. -/
  owner : Nat
  /-- The object. -/
  object : ObjectRef

namespace Made

/-- The notes of a component and what was made of them. -/
def ofNotes (owner : Nat) (notes : List Blueprint) (objects : List ObjectRef) : List Made :=
  (notes.zip objects).map fun (note, object) => { node := note, owner, object }

/-- Add what was made to the objects by identifier. -/
def identify (identifiers : Namespace) (m : Made) : Namespace :=
  Scene.identify identifiers m.node.identifier m.object

/-- What was made is an object of the node's class. -/
def Fits (m : Made) : Prop := m.object.className = m.node.widgetClass.name

end Made

namespace Scene

variable {α : Type}

/-- The object of a component, the objects of its notes, and its children. -/
def parts? (s : Scene α) (k : Nat) : Option (ObjectRef × List ObjectRef × List Nat) :=
  (s.component? k).map fun comp => (comp.object, comp.notes, comp.children)

mutual

/-- What was made of the nodes of a blueprint, as it is found below a component. -/
def made (s : Scene α) : Blueprint → Nat → List Made
  | b@{ children, notes, .. }, c =>
    match s.parts? c with
    | none => []
    | some (object, objects, cs) =>
      { node := b, owner := c, object } :: (Made.ofNotes c notes objects ++ s.madeAll children cs)

/-- What was made of the nodes of several blueprints, as it is found below components. -/
def madeAll (s : Scene α) : List Blueprint → List Nat → List Made
  | b :: rest, c :: more => s.made b c ++ s.madeAll rest more
  | _, _ => []

end

/-- The objects of a component and its notes. -/
def ownedBy (s : Scene α) (k : Nat) : List Nat :=
  match s.parts? k with
  | none => []
  | some (object, objects, _) => object.id :: objects.map ObjectRef.id

theorem ownedObjects_eq (s : Scene α) :
    s.ownedObjects = (List.range s.components.size).flatMap s.ownedBy := by
  have hslot : ∀ k, s.ownedBy k = ((s.components.toList[k]?).join.map fun comp =>
      comp.object.id :: comp.notes.map ObjectRef.id).getD [] := by
    intro k
    unfold ownedBy parts? component?
    rw [Array.getElem?_toList]
    cases (s.components[k]?).join <;> rfl
  unfold ownedObjects
  rw [← Array.length_toList]
  generalize s.components.toList = slots at hslot
  rw [List.flatMap_congr fun k _ => hslot k]
  clear hslot
  induction slots using List.reverseRecOn with
  | nil => rfl
  | append_singleton slots slot ih =>
    rw [List.flatMap_append, ih, List.length_append, List.length_singleton, List.range_succ,
      List.flatMap_append]
    refine congrArg₂ _ (List.flatMap_congr fun k hk => ?_) ?_
    · rw [List.getElem?_append_left (List.mem_range.1 hk)]
    · rw [List.flatMap_singleton, List.flatMap_singleton, List.getElem?_concat_length]
      cases slot <;> rfl

/-- Two scenes have the same parts in a range of components. -/
def SameParts (lo hi : Nat) (s t : Scene α) : Prop := ∀ k, lo ≤ k → k < hi → t.parts? k = s.parts? k

/-- How many objects there are. -/
def objectCount (s : Scene α) : Nat := s.network.store.objects.size

/-- What was made of nodes in a range of components, one object after the other. -/
structure Realizes (u : Scene α) (nodes : List Blueprint) (lo hi first : Nat)
    (identifiers identifiers' : Namespace) (made : List Made) : Prop where
  map_node : made.map Made.node = nodes
  map_id : made.map (·.object.id) = List.range' first nodes.length
  fits : ∀ m ∈ made, m.Fits
  names : identifiers' = made.foldl Made.identify identifiers
  owned : (List.range' lo (hi - lo)).flatMap u.ownedBy = made.map (·.object.id)

/-- Between two scenes nodes are realized. They are found wherever the new components are the same. -/
structure Builds (s : Scene α) (nodes : List Blueprint) (identifiers : Namespace) (t : Scene α)
    (identifiers' : Namespace) (made : Scene α → List Made) : Prop where
  le : s.components.size ≤ t.components.size
  count : t.objectCount = s.objectCount + nodes.length
  realizes : ∀ u, SameParts s.components.size t.components.size t u →
    u.Realizes nodes s.components.size t.components.size s.objectCount identifiers identifiers'
      (made u)

variable {s t u : Scene α} {p c k : Nat} {xs ys : List Blueprint}
  {identifiers identifiers' identifiers'' : Namespace} {f g : Scene α → List Made}

theorem Builds.append (h : s.Builds xs identifiers t identifiers' f)
    (h' : t.Builds ys identifiers' u identifiers'' g)
    (hsame : SameParts s.components.size t.components.size t u) :
    s.Builds (xs ++ ys) identifiers u identifiers'' fun v => f v ++ g v := by
  refine ⟨h.le.trans h'.le, ?_, fun v hv => ?_⟩
  · rw [h'.count, h.count, List.length_append, Nat.add_assoc]
  · have hfirst := h.realizes v fun k hlo hhi =>
      (hv k hlo (hhi.trans_le h'.le)).trans (hsame k hlo hhi)
    have hrest := h'.realizes v fun k hlo hhi => hv k (h.le.trans hlo) hhi
    refine ⟨?_, ?_, ?_, ?_, ?_⟩
    · rw [List.map_append, hfirst.map_node, hrest.map_node]
    · rw [List.map_append, hfirst.map_id, hrest.map_id, h.count, List.length_append,
        ← List.range'_append_1]
    · exact List.forall_mem_append.2 ⟨hfirst.fits, hrest.fits⟩
    · rw [List.foldl_append, ← hfirst.names, hrest.names]
    · rw [List.map_append, ← hfirst.owned, ← hrest.owned, ← List.flatMap_append]
      have hle := h.le
      have hle' := h'.le
      obtain ⟨m, hm⟩ := Nat.exists_eq_add_of_le hle
      rw [show u.components.size - s.components.size
        = m + (u.components.size - t.components.size) by omega, hm, Nat.add_sub_cancel_left,
        List.range'_append_1]

theorem Builds.congr (h : s.Builds xs identifiers t identifiers' f)
    (hsize : u.components.size = t.components.size) (hcount : u.objectCount = t.objectCount)
    (hsame : SameParts s.components.size t.components.size t u) :
    s.Builds xs identifiers u identifiers' f := by
  refine ⟨hsize ▸ h.le, hcount.trans h.count, fun v hv => ?_⟩
  rw [hsize] at hv ⊢
  exact h.realizes v fun k hlo hhi => (hv k hlo hhi).trans (hsame k hlo hhi)

theorem builds_nil (s : Scene α) (identifiers : Namespace) :
    s.Builds [] identifiers s identifiers fun _ => [] := by
  refine ⟨le_rfl, rfl, fun u _ => ⟨rfl, rfl, nofun, rfl, ?_⟩⟩
  rw [Nat.sub_self]
  rfl

/-! ### One widget -/

theorem parts?_attach (s : Scene α) (p c k : Nat) : (s.attach p c).parts? k
    = (s.parts? k).map fun (o, os, cs) => (o, os, if k = p then cs ++ [c] else cs) := by
  unfold parts?
  rw [component?_attach]
  cases s.component? k <;> rfl

theorem size_attach (s : Scene α) (p c : Nat) :
    (s.attach p c).components.size = s.components.size := by
  unfold attach
  exact Array.size_modify.trans Array.size_modify

variable [Scalar α]

theorem watch_store (net : Network) (o : ObjectRef) (c : Nat) (attrs : List String) :
    (watch net o c attrs).2.store = net.store := by
  induction attrs generalizing net with
  | nil => rfl
  | cons attr rest ih => exact ih _

/-- A new component comes last, with a new object of its class. -/
theorem newComponent_spec (s : Scene α) (widgetClass : WidgetClass) (identifier : Option String) :
    ∃ o : ObjectRef, o.id = s.objectCount ∧ o.className = widgetClass.name ∧
      (s.newComponent widgetClass identifier).1 = s.components.size ∧
      (s.newComponent widgetClass identifier).2.components.size = s.components.size + 1 ∧
      (s.newComponent widgetClass identifier).2.objectCount = s.objectCount + 1 ∧
      ∀ k, (s.newComponent widgetClass identifier).2.parts? k
        = if k = s.components.size then some (o, [], []) else s.parts? k := by
  refine ⟨(widgetClass.newObject s.network.store).1, rfl, rfl, rfl, Array.size_push _, ?_, fun k => ?_⟩
  · unfold objectCount newComponent
    dsimp only
    rw [watch_store]
    exact Array.size_push _
  · unfold parts? component? newComponent
    dsimp only
    rw [Array.getElem?_push]
    split <;> rfl

omit [Scalar α] in
theorem parts?_update (s : Scene α) (c : Nat) (f : Component α → Component α) (k : Nat) :
    (s.update c f).parts? k = if k = c then
      (s.component? k).map fun comp => ((f comp).object, (f comp).notes, (f comp).children)
    else s.parts? k := by
  unfold parts?
  rw [component?_update]
  split
  · exact Option.map_map ..
  · rfl

omit [Scalar α] in
/-- A new note comes last among those of its component, with a new object of its class. -/
theorem newNote_spec {o : ObjectRef} {os : List ObjectRef} {cs : List Nat}
    (hc : s.parts? c = some (o, os, cs)) (widgetClass : WidgetClass) :
    (s.newNote c widgetClass).1.id = s.objectCount ∧
      (s.newNote c widgetClass).1.className = widgetClass.name ∧
      (s.newNote c widgetClass).2.components.size = s.components.size ∧
      (s.newNote c widgetClass).2.objectCount = s.objectCount + 1 ∧
      ∀ k, (s.newNote c widgetClass).2.parts? k
        = if k = c then some (o, os ++ [(s.newNote c widgetClass).1], cs) else s.parts? k := by
  refine ⟨rfl, rfl, Array.size_modify, Array.size_push _, fun k => ?_⟩
  unfold newNote
  dsimp only
  rw [parts?_update]
  split
  · next hk =>
    subst hk
    obtain ⟨comp, hcomp, hparts⟩ := Option.map_eq_some_iff.1 hc
    change Option.map _ (s.component? k) = _
    rw [hcomp]
    cases hparts
    rfl
  · rfl

omit [Scalar α] in
theorem buildNotes_spec (notes : List Blueprint) (identifiers : Namespace) (s : Scene α)
    {o : ObjectRef} {os : List ObjectRef} {cs : List Nat} (hc : s.parts? c = some (o, os, cs)) :
    ∃ news : List ObjectRef, news.length = notes.length ∧
      (buildNotes c notes identifiers s).2.components.size = s.components.size ∧
      (buildNotes c notes identifiers s).2.objectCount = s.objectCount + notes.length ∧
      (∀ k, (buildNotes c notes identifiers s).2.parts? k
        = if k = c then some (o, os ++ news, cs) else s.parts? k) ∧
      (buildNotes c notes identifiers s).1
        = (Made.ofNotes c notes news).foldl Made.identify identifiers ∧
      news.map ObjectRef.id = List.range' s.objectCount notes.length ∧
      ∀ m ∈ Made.ofNotes c notes news, m.Fits := by
  induction notes generalizing identifiers s os with
  | nil =>
    refine ⟨[], rfl, rfl, rfl, fun k => ?_, rfl, rfl, nofun⟩
    split
    · next hk => rw [hk, List.append_nil, ← hc]; rfl
    · rfl
  | cons note rest ih =>
    obtain ⟨hid, hclass, hsize, hcount, hparts⟩ := newNote_spec hc note.widgetClass
    rw [buildNotes]
    generalize s.newNote c note.widgetClass = x at *
    obtain ⟨object, t⟩ := x
    obtain ⟨news, hlength, hsize', hcount', hparts', hnames, hids, hfits⟩ :=
      ih (identify identifiers note.identifier object) t ((hparts c).trans (if_pos rfl))
    refine ⟨object :: news, congrArg (· + 1) hlength, hsize'.trans hsize, ?_, fun k => ?_, hnames, ?_,
      List.forall_mem_cons.2 ⟨hclass, hfits⟩⟩
    · rw [hcount', hcount, List.length_cons]
      omega
    · rw [hparts', hparts]
      split
      · rw [List.append_assoc]
        rfl
      · rfl
    · rw [List.map_cons, hids, hid, hcount, List.length_cons, List.range'_succ]

omit [Scalar α] in
theorem realizes_root {children notes : List Blueprint} {b : Blueprint} {o : ObjectRef}
    {news : List ObjectRef} {kids : List Nat} {hi first : Nat}
    (hrealized : b.realized = b :: (notes ++ Blueprint.realizedAll children))
    (hparts : u.parts? c = some (o, news, kids)) (hfits : o.className = b.widgetClass.name)
    (hid : o.id = first) (hlength : news.length = notes.length)
    (hids : news.map ObjectRef.id = List.range' (first + 1) notes.length)
    (hnotes : ∀ m ∈ Made.ofNotes c notes news, m.Fits) (hhi : c < hi)
    (hnames : identifiers'
      = (Made.ofNotes c notes news).foldl Made.identify (identify identifiers b.identifier o))
    (h : u.Realizes (Blueprint.realizedAll children) (c + 1) hi (first + 1 + notes.length)
      identifiers' identifiers'' (u.madeAll children kids)) :
    u.Realizes b.realized c hi first identifiers identifiers''
      ({ node := b, owner := c, object := o } ::
        (Made.ofNotes c notes news ++ u.madeAll children kids)) := by
  have hzip : (Made.ofNotes c notes news).map Made.node = notes := by
    unfold Made.ofNotes
    rw [List.map_map]
    exact (List.map_fst_zip hlength.ge : (notes.zip news).map Prod.fst = notes)
  have hobjects : (Made.ofNotes c notes news).map (·.object.id) = news.map ObjectRef.id := by
    unfold Made.ofNotes
    rw [List.map_map]
    have hsnd := congrArg (List.map ObjectRef.id) (List.map_snd_zip hlength.le)
    rwa [List.map_map] at hsnd
  refine ⟨?_, ?_, ?_, ?_, ?_⟩
  · rw [List.map_cons, List.map_append, hzip, h.map_node, hrealized]
  · rw [List.map_cons, List.map_append, hobjects, hids, h.map_id, hrealized, List.length_cons,
      List.length_append, List.range'_succ, ← List.range'_append_1, hid]
  · exact List.forall_mem_cons.2 ⟨hfits, List.forall_mem_append.2 ⟨hnotes, h.fits⟩⟩
  · rw [List.foldl_cons, List.foldl_append, h.names, hnames]
    rfl
  · rw [show hi - c = (hi - (c + 1)) + 1 by omega, List.range'_succ, List.flatMap_cons, h.owned,
      List.map_cons, List.map_append, hobjects]
    unfold ownedBy
    rw [hparts]
    rfl

/-! ### All widgets -/

mutual

/-- Building makes one thing of every node that is in no note. -/
theorem build_spec : (b : Blueprint) → (identifiers : Namespace) → (s : Scene α) →
    (build b identifiers s).1 = s.components.size ∧
    s.components.size < (build b identifiers s).2.2.components.size ∧
    (∀ k < s.components.size, (build b identifiers s).2.2.parts? k = s.parts? k) ∧
    s.Builds b.realized identifiers (build b identifiers s).2.2 (build b identifiers s).2.1
      fun u => u.made b s.components.size
  | { widgetClass, identifier, children, notes, assignments, notifiers }, identifiers, s => by
    obtain ⟨o, hid, hclass, hc, hsize, hcount, hparts⟩ := s.newComponent_spec widgetClass identifier
    rw [build]
    generalize s.newComponent widgetClass identifier = x at *
    obtain ⟨c, s₁⟩ := x
    subst hc
    have hnew : s₁.parts? s.components.size = some (o, [], []) := (hparts _).trans (if_pos rfl)
    obtain ⟨comp, hcomp, hobject⟩ := Option.map_eq_some_iff.1 hnew
    obtain rfl : comp.object = o := congrArg Prod.fst hobject
    simp only [hcomp]
    obtain ⟨news, hlength, hsize₂, hcount₂, hparts₂, hnames, hids, hfits⟩ :=
      buildNotes_spec notes (identify identifiers identifier comp.object) s₁ hnew
    generalize buildNotes s.components.size notes (identify identifiers identifier comp.object) s₁
      = x at *
    obtain ⟨ids₂, s₂⟩ := x
    dsimp only at hsize hcount hparts hsize₂ hcount₂ hparts₂ hnames ⊢
    obtain ⟨kids, hbuilds, hparts₃⟩ := buildChildren_spec children ids₂ s₂
      (p := s.components.size) (by omega) ((hparts₂ _).trans (if_pos rfl))
    generalize buildChildren s.components.size children ids₂ s₂ = x at *
    obtain ⟨ids₃, t⟩ := x
    dsimp only at hbuilds hparts₃ ⊢
    have hle := hbuilds.le
    refine ⟨trivial, by omega, fun k hk => ?_, by omega, ?_, fun u hu => ?_⟩
    · rw [hparts₃ k (by omega), if_neg hk.ne, hparts₂, if_neg hk.ne, hparts, if_neg hk.ne]
    · rw [hbuilds.count, hcount₂, hcount, Blueprint.realized, List.length_cons, List.length_append]
      omega
    · have hroot : u.parts? s.components.size = some (comp.object, news, kids) := by
        rw [hu _ le_rfl (by omega), hparts₃ _ (by omega), if_pos rfl]
        rfl
      have hrest := hbuilds.realizes u fun k hlo hhi => hu k (by omega) hhi
      rw [hsize₂, hsize, hcount₂, hcount] at hrest
      rw [made, hroot]
      rw [hcount] at hids
      exact realizes_root rfl hroot hclass hid hlength hids hfits (by omega) hnames hrest

theorem buildChildren_spec : (bs : List Blueprint) → (identifiers : Namespace) → (s : Scene α) →
    {p : Nat} → p < s.components.size → {o : ObjectRef} → {os : List ObjectRef} → {cs : List Nat} →
    s.parts? p = some (o, os, cs) →
    ∃ kids : List Nat,
      s.Builds (Blueprint.realizedAll bs) identifiers (buildChildren p bs identifiers s).2
        (buildChildren p bs identifiers s).1 (fun u => u.madeAll bs kids) ∧
      ∀ k < s.components.size, (buildChildren p bs identifiers s).2.parts? k
        = if k = p then some (o, os, cs ++ kids) else s.parts? k
  | [], identifiers, s, p, hlt, o, os, cs, hp => by
    refine ⟨[], s.builds_nil identifiers, fun k _ => ?_⟩
    split
    · next hk => rw [List.append_nil, hk, ← hp]; rfl
    · rfl
  | b :: rest, identifiers, s, p, hlt, o, os, cs, hp => by
    obtain ⟨hc, hlt₁, hparts, hbuilds⟩ := build_spec b identifiers s
    rw [buildChildren]
    generalize build b identifiers s = x at *
    obtain ⟨c, ids₁, s₁⟩ := x
    dsimp only at hc hlt₁ hparts hbuilds ⊢
    subst hc
    have hattached := parts?_attach s₁ p s.components.size
    have hsize := size_attach s₁ p s.components.size
    have hcount : (s₁.attach p s.components.size).objectCount = s₁.objectCount := rfl
    generalize s₁.attach p s.components.size = s₂ at *
    have hp₂ : s₂.parts? p = some (o, os, cs ++ [s.components.size]) := by
      rw [hattached, hparts p hlt, hp]
      exact congrArg (fun cs => some (o, os, cs)) (if_pos rfl)
    have hother {k : Nat} (hk : k ≠ p) : s₂.parts? k = s₁.parts? k := by
      rw [hattached]
      simp only [if_neg hk]
      exact Option.map_id' ..
    obtain ⟨kids, hrest, hparts'⟩ := buildChildren_spec rest ids₁ s₂ (by omega) hp₂
    generalize buildChildren p rest ids₁ s₂ = x at *
    obtain ⟨ids₂, t⟩ := x
    dsimp only at hrest hparts' ⊢
    refine ⟨s.components.size :: kids, ?_, fun k hk => ?_⟩
    · have hfirst := hbuilds.congr hsize hcount fun k hlo _ => hother (by omega)
      exact hfirst.append hrest fun k hlo hhi => (hparts' k hhi).trans (if_neg (by omega))
    · rw [hparts' k (by omega), List.append_assoc]
      split
      · rfl
      · next hkp => rw [hother hkp, hparts k hk]

end

end Scene

end ReactiveView
