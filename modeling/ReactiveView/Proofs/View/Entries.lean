import ReactiveView.Proofs.Document.Recoding
import ReactiveView.Proofs.Effect.Twins
import ReactiveView.Proofs.View.Keeping
import Mathlib

/-!
This module contains the code of a view as a list of entries, which are tied one after the other, and
that a view with other statements is built in the same way: what is made is the same, and the entries
are the same but for the statements. Building leaves alone what was there before.
-/

namespace ReactiveView

/-- The node with other statements. -/
def Made.recode (g : List Statement → List Statement) (m : Made) : Made :=
  { m with node := m.node.recode g }

namespace Scene

variable {α : Type} {s s' t : Scene α}

/-! ### Code, one entry after the other -/

/-- Code that is tied, and what it is tied to. -/
abbrev Entry := Made × String × Binding

/-- The attribute that code is tied to. -/
def Entry.slot (x : Entry) : Slot := (x.1.object.id, x.2.1)

/-- The code assigns. -/
def Entry.Assigns (x : Entry) : Prop := x.2.2.kind ≠ .notify

/-- What code sees. -/
def Entry.scope (scope : Scope) (x : Entry) : Scope :=
  scope.push (Table.ofList [("self", .object x.1.object)])

/-- The entry with other statements. -/
def Entry.recode (g : List Statement → List Statement) (x : Entry) : Entry :=
  (x.1.recode g, Blueprint.recodeEntry g x.2)

/-- Tie the code of an entry. -/
def tieEntry (scope : Scope) (x : Entry) : Tying α Unit :=
  tie x.1.owner x.1.node.label x.1.object (x.scope scope) x.2.1 x.2.2

theorem run_get_bind {β : Type} (f : Scene α → Tying α β) (s : Scene α) :
    (get >>= f : Tying α β).run.run s = (f s).run.run s := rfl

/-- What is run before and after does the same if it does so wherever the first leads to. -/
theorem run_ties_bind {x x' y y' : Tying α Unit} (hx : x.run.run s = x'.run.run s)
    (hkeeps : Leads x.run s fun r t => r = .ok () → s.Keeps t)
    (hy : ∀ t, s.Keeps t → y.run.run t = y'.run.run t) :
    (x >>= fun _ => y).run.run s = (x' >>= fun _ => y').run.run s := by
  unfold Leads at hkeeps
  simp only [ExceptT.run_bind, StateT.run_bind, hx]
  rw [hx] at hkeeps
  generalize x'.run.run s = p at hkeeps
  obtain ⟨_ | _, t⟩ := p
  · rfl
  · exact hy t (hkeeps rfl)

/-- Tie the code of several entries. -/
def tieCode (scope : Scope) (xs : List Entry) : Tying α Unit := xs.forM (tieEntry scope)

variable {scope : Scope}

theorem tieCode_append (xs ys : List Entry) :
    (tieCode scope (xs ++ ys) : Tying α Unit) = tieCode scope xs >>= fun _ => tieCode scope ys :=
  List.forM_append

theorem tieTo_eq (m : Made) : (tieTo m.owner m.node m.object scope : Tying α Unit)
    = tieCode scope (m.node.bindings.map fun entry => (m, entry)) := by
  unfold tieTo tieCode
  rw [List.forM_eq_forM, List.forM_eq_forM, List.forM_map]
  rfl

theorem leads_tieCode (xs : List Entry) (s : Scene α) :
    Leads (tieCode scope xs).run s fun r t => r = .ok () → Ties scope s xs t := by
  induction xs generalizing s with
  | nil => exact leads_run_pure.2 fun _ => .nil
  | cons x rest ih => exact leads_ties_bind (leads_tie x.1 _ x.2.1 x.2.2 s) fun t _ => ih t

/-- Code of one list and then that of another one, where something else does the latter. -/
theorem run_tieCode_append {x y : Tying α Unit} {xs ys : List Entry}
    (hx : x.run.run s = (tieCode scope xs).run.run s)
    (hy : ∀ t, s.Keeps t → y.run.run t = (tieCode scope ys).run.run t) :
    (x >>= fun _ => y).run.run s = (tieCode scope (xs ++ ys)).run.run s := by
  rw [tieCode_append]
  refine run_ties_bind hx ?_ hy
  unfold Leads
  rw [hx]
  exact (leads_tieCode xs s).mono fun r t h hr => (h hr).keeps

theorem run_tieNotes (owner : Nat) (notes : List Blueprint) (objects : List ObjectRef)
    (s : Scene α) : (tieNotes owner scope (notes.zip objects)).run.run s
      = (tieCode scope (code (Made.ofNotes owner notes objects))).run.run s := by
  unfold Made.ofNotes
  generalize notes.zip objects = pairs
  induction pairs generalizing s with
  | nil => rfl
  | cons pair rest ih =>
    rw [tieNotes, List.map_cons, code_cons]
    exact run_tieCode_append (by rw [← tieTo_eq]) fun t _ => ih t

mutual

/-- The code of a blueprint is tied entry by entry. -/
theorem run_tieAll : (b : Blueprint) → (c : Nat) → (s : Scene α) →
    (tieAll scope b c).run.run s = (tieCode scope (code (s.made b c))).run.run s
  | { widgetClass, identifier, children, notes, assignments, notifiers }, c, s => by
    rw [tieAll, made, run_get_bind]
    unfold parts?
    cases s.component? c with
    | none => rfl
    | some comp =>
      dsimp only [Option.map_some]
      rw [code_cons, code_append]
      refine run_tieCode_append (by rw [← tieTo_eq]) fun t ht => ?_
      refine run_tieCode_append (run_tieNotes ..) fun u hu => ?_
      rw [← madeAll_congr (hu.parts.trans ht.parts)]
      exact run_tieChildren children comp.children u

theorem run_tieChildren : (bs : List Blueprint) → (cs : List Nat) → (s : Scene α) →
    (tieChildren scope bs cs).run.run s = (tieCode scope (code (s.madeAll bs cs))).run.run s
  | b :: rest, c :: more, s => by
    rw [tieChildren, madeAll, code_append]
    refine run_tieCode_append (run_tieAll b c s) fun t ht => ?_
    rw [← madeAll_congr ht.parts]
    exact run_tieChildren rest more t
  | [], _, s => rfl
  | _ :: _, [], s => rfl

end

/-! ### Building with other statements -/

section

variable (g : List Statement → List Statement)

theorem madeNotes_recode (owner : Nat) (notes : List Blueprint) (objects : List ObjectRef) :
    Made.ofNotes owner (Blueprint.recodeAll g notes) objects
      = (Made.ofNotes owner notes objects).map (Made.recode g) := by
  unfold Made.ofNotes
  rw [Blueprint.recodeAll_eq_map, List.zip_map_left, List.map_map, List.map_map]
  rfl

mutual

theorem made_recode (s : Scene α) : (b : Blueprint) → (c : Nat) →
    s.made (b.recode g) c = (s.made b c).map (Made.recode g)
  | { widgetClass, identifier, children, notes, assignments, notifiers }, c => by
    rw [Blueprint.recode, made, made]
    split
    · rfl
    · rw [List.map_cons, List.map_append, madeNotes_recode, madeAll_recode s children]
      unfold Made.recode
      rw [Blueprint.recode]

theorem madeAll_recode (s : Scene α) : (bs : List Blueprint) → (cs : List Nat) →
    s.madeAll (Blueprint.recodeAll g bs) cs = (s.madeAll bs cs).map (Made.recode g)
  | b :: rest, c :: more => by
    rw [Blueprint.recodeAll, madeAll, madeAll, List.map_append, made_recode s b c,
      madeAll_recode s rest more]
  | [], _ => rfl
  | _ :: _, [] => rfl

end

theorem code_recode (ms : List Made) :
    code (ms.map (Made.recode g)) = (code ms).map (Entry.recode g) := by
  unfold code
  rw [List.flatMap_map, List.map_flatMap]
  refine List.flatMap_congr fun m _ => ?_
  rw [show (m.recode g).node.bindings = _ from m.node.bindings_recode g, List.map_map, List.map_map]
  rfl

theorem buildNotes_recode (c : Nat) (notes : List Blueprint) (identifiers : Namespace)
    (s : Scene α) :
    buildNotes c (Blueprint.recodeAll g notes) identifiers s = buildNotes c notes identifiers s := by
  induction notes generalizing identifiers s with
  | nil => rfl
  | cons note rest ih =>
    rw [Blueprint.recodeAll, buildNotes, buildNotes, Blueprint.widgetClass_recode,
      Blueprint.identifier_recode]
    exact ih _ _

variable [Scalar α]

mutual

theorem build_recode : (b : Blueprint) → (identifiers : Namespace) → (s : Scene α) →
    build (b.recode g) identifiers s = build b identifiers s
  | { widgetClass, identifier, children, notes, .. }, identifiers, s => by
    rw [Blueprint.recode, build, build]
    dsimp only
    rw [buildNotes_recode, buildChildren_recode]

theorem buildChildren_recode (p : Nat) : (bs : List Blueprint) → (identifiers : Namespace) →
    (s : Scene α) → buildChildren p (Blueprint.recodeAll g bs) identifiers s
      = buildChildren p bs identifiers s
  | [], _, _ => rfl
  | b :: rest, identifiers, s => by
    rw [Blueprint.recodeAll, buildChildren, buildChildren, build_recode b]
    exact buildChildren_recode p rest _ _

end

end

end Scene

/-! ### Building leaves alone what was there -/

namespace Network

/-- New objects came, of which only size hints are followed. -/
structure Furnishes (net net' : Network) : Prop where
  links : net'.links = net.links
  observers : ∀ ob ∈ net'.observers, ob ∈ net.observers ∨ ∃ w, ob.handler = .hint w
  objects : ∀ id < net.store.objects.size, net'.store.objects[id]? = net.store.objects[id]?
  count : net.store.objects.size ≤ net'.store.objects.size

instance : Std.Refl Furnishes := ⟨fun _ => ⟨rfl, fun _ => .inl, fun _ _ => rfl, le_rfl⟩⟩

instance : IsTrans Network Furnishes where
  trans _ _ _ h h' := by
    refine ⟨h'.links.trans h.links, fun ob hob => ?_, fun id hid => ?_, h.count.trans h'.count⟩
    · exact (h'.observers ob hob).elim (h.observers ob) .inr
    · exact (h'.objects id (hid.trans_le h.count)).trans (h.objects id hid)

theorem furnishes_create (net : Network) (className : String) (shape : Shape) (attrs : Namespace)
    (owners : List Nat) : net.Furnishes
      { net with store := (net.store.create className shape attrs).2, owners } where
  links := rfl
  observers _ := .inl
  objects _ hid := Array.getElem?_push.trans (if_neg hid.ne)
  count := (Nat.le_succ _).trans_eq (Array.size_push _).symm

end Network

namespace Scene

variable {α : Type} {s t : Scene α}

theorem furnishes_watch (net : Network) (o : ObjectRef) (c : Nat) (attrs : List String) :
    net.Furnishes (watch net o c attrs).2 := by
  induction attrs generalizing net with
  | nil => exact Std.Refl.refl net
  | cons attr rest ih =>
    have hone : net.Furnishes (net.subscribe o.id attr (.hint c)).2 := by
      refine ⟨rfl, fun ob hob => ?_, fun _ _ => rfl, le_rfl⟩
      rcases List.mem_append.1 hob with hob | hob
      · exact .inl hob
      · exact .inr ⟨c, by rw [List.mem_singleton.1 hob]⟩
    exact IsTrans.trans _ _ _ hone (ih _)

theorem furnishes_newNote (s : Scene α) (c : Nat) (widgetClass : WidgetClass) :
    s.network.Furnishes (s.newNote c widgetClass).2.network := s.network.furnishes_create ..

theorem furnishes_buildNotes (c : Nat) (notes : List Blueprint) (identifiers : Namespace)
    (s : Scene α) : s.network.Furnishes (buildNotes c notes identifiers s).2.network := by
  induction notes generalizing identifiers s with
  | nil => exact Std.Refl.refl _
  | cons note rest ih => exact IsTrans.trans _ _ _ (s.furnishes_newNote c note.widgetClass) (ih _ _)

variable [Scalar α]

theorem furnishes_newComponent (s : Scene α) (widgetClass : WidgetClass)
    (identifier : Option String) :
    s.network.Furnishes (s.newComponent widgetClass identifier).2.network :=
  IsTrans.trans _ _ _ (s.network.furnishes_create ..) (furnishes_watch ..)

mutual

theorem furnishes_build : (b : Blueprint) → (identifiers : Namespace) → (s : Scene α) →
    s.network.Furnishes (build b identifiers s).2.2.network
  | { widgetClass, identifier, children, notes, .. }, identifiers, s => by
    rw [build]
    refine IsTrans.trans _ _ _ (s.furnishes_newComponent widgetClass identifier) ?_
    exact IsTrans.trans _ _ _ (furnishes_buildNotes ..) (furnishes_buildChildren _ children _ _)

theorem furnishes_buildChildren (p : Nat) : (bs : List Blueprint) → (identifiers : Namespace) →
    (s : Scene α) → s.network.Furnishes (buildChildren p bs identifiers s).2.network
  | [], _, s => Std.Refl.refl s.network
  | b :: rest, identifiers, s => by
    rw [buildChildren]
    exact IsTrans.trans _ _ _ (furnishes_build b identifiers s)
      (furnishes_buildChildren p rest _ (Scene.attach _ p _))

end

end Scene

end ReactiveView
