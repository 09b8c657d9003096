import ReactiveView.Proofs.View.Entries
import Mathlib

/-!
This module contains that no statement is run while a view is built whose notifies are quiet: with
other statements the same is built, and what was there before keeps its attributes. Where an attribute
with a notify follows the view, a statement may be run: first assignments of later widgets reach it.
-/

namespace ReactiveView

/-! ### Tying with other statements -/

namespace Fence

open Scene

variable {α : Type} {F F' : Fence} {store : Store} {s s' : Scene α} {a b : Network} {scope : Scope}

/-- Two scenes that are the same but for the networks, which keep to a fence. -/
structure Scenes (F : Fence) (store : Store) (s s' : Scene α) : Prop where
  nets : F.Nets store s.network s'.network
  rest : s' = { s with network := s'.network }

theorem Scenes.heedSignals (h : F.Nets store a b) (hrest : s' = { s with network := s'.network }) :
    F.Scenes store { s with network := a }.heedSignals { s' with network := b }.heedSignals := by
  have hsignals : b.signals = a.signals := by
    rw [h.recoded.rest]
    rfl
  rw [hrest]
  dsimp only
  rw [heedSignals_network, heedSignals_network, hsignals]
  refine ⟨h.fade (Network.fades_of_same rfl rfl rfl) ?_, rfl⟩
  exact h.recoded.map (f := fun net => { net with signals := [] }) (fun _ _ => rfl) fun _ => rfl

theorem Scenes.update (h : F.Scenes store s s') (c : Nat) (f : Component α → Component α) :
    F.Scenes store (s.update c f) (s'.update c f) := by
  refine ⟨h.nets, ?_⟩
  rw [h.rest]
  rfl

/-- Two scenes keep to some fence around the same view. -/
def Holds (F : Fence) (store : Store) (s s' : Scene α) : Prop :=
  ∃ F' : Fence, F'.base = F.base ∧ F'.first = F.first ∧ F'.Scenes store s s'

theorem Scenes.holds (h : F.Scenes store s s') : F.Holds store s s' := ⟨F, rfl, rfl, h⟩

theorem Holds.of_next {x : Slot} {settles : Prop} (hnext : F.Next x settles F')
    (h : F'.Holds store s s') : F.Holds store s s' := by
  obtain ⟨F'', hbase, hfirst, hscenes⟩ := h
  exact ⟨F'', hbase.trans hnext.base, hfirst.trans hnext.first, hscenes⟩

/-- With other statements code comes to the same result, and to a scene that is the same but for the
network. The two networks keep to what the fence is after the code. -/
theorem tie_scenes (hF : F.Sound) (hidle : ∀ k, ¬F.outer k) (h : F.Scenes store s s') (owner : Nat)
    {label label' : String} (hlabel : label' = label) (attr : String) (o : ObjectRef) {binding : Binding}
    (hassign : binding.kind ≠ .notify → F.pending (o.id, attr))
    (hnotify : binding.kind = .notify → ¬F.Open (o.id, attr))
    (g : List Statement → List Statement) :
    Twins (tie owner label o scope attr binding).run
      (tie owner label' o scope attr (binding.recode g)).run s s'
      (Ends (fun e e' t t' => e' = e ∧ F.Holds store t t')
        fun _ _ t t' => ∃ F', F.Next (o.id, attr) (F.Settles scope binding) F' ∧
          F'.Scenes store t t') := by
  have hagree : Agree (F.After store (o.id, attr) (F.Settles scope binding)) Eq
      (s.network.connect? binding o attr scope)
      (s'.network.connect? (binding.recode g) o attr scope) :=
    agree_connect hF hidle h.nets nestingLimit hassign hnotify g
  have hrest := h.rest
  subst hlabel
  unfold Twins tie
  simp only [leads_run_get_bind]
  generalize s.network.connect? binding o attr scope = x at hagree
  generalize s'.network.connect? (binding.recode g) o attr scope = y at hagree
  cases hagree with
  | none => exact .error ⟨rfl, h.holds⟩
  | @some p q hpair =>
    obtain ⟨r, a⟩ := p
    obtain ⟨r', b⟩ := q
    obtain ⟨rfl, F', hnext, hnets⟩ := hpair
    have hheed : F'.Scenes store _ _ := Scenes.heedSignals hnets hrest
    simp only [leads_run_set_bind]
    cases r with
    | error e =>
      rw [Binding.kind_recode]
      exact .error ⟨rfl, hheed.holds.of_next hnext⟩
    | ok link =>
      cases link with
      | none => exact .ok ⟨F', hnext, hheed⟩
      | some k => exact .ok ⟨F', hnext, hheed.update ..⟩

/-- Code is still to be tied: attributes that are still to be assigned are those of the code, each but
once, and then those that stay open; where there is a notify, none does. -/
structure Ready (F : Fence) (Loose : Slot → Prop) (scope : Scope) (xs : List Entry) : Prop where
  sound : F.Sound
  idle : ∀ k, ¬F.outer k
  pending : ∀ y, F.pending y ↔ ∃ x ∈ xs, x.Assigns ∧ x.slot = y
  opened : ∀ y, F.Open y → F.pending y ∨ Loose y
  apart : xs.Pairwise fun x y => y.Assigns → x.slot ≠ y.slot
  quiet : ∀ x ∈ xs, ¬x.Assigns → ¬Loose x.slot
  loose : ∀ x ∈ xs, x.Assigns → ¬F.Settles (x.scope scope) x.2.2 → Loose x.slot

variable {Loose : Slot → Prop} {x : Entry} {xs : List Entry}

theorem Settles.congr (hbase : F'.base = F.base) {binding : Binding}
    (h : F.Settles scope binding) : F'.Settles scope binding := by
  unfold Settles Outside at *
  rwa [hbase]

theorem Ready.next (h : F.Ready Loose scope (x :: xs))
    (hnext : F.Next x.slot (F.Settles (x.scope scope) x.2.2) F') : F'.Ready Loose scope xs where
  sound := hnext.sound
  idle := hnext.idle
  pending y := by
    rw [hnext.pending, h.pending]
    constructor
    · rintro ⟨⟨z, hz, hassigns, rfl⟩, hne⟩
      rcases List.mem_cons.1 hz with rfl | hz
      · exact absurd rfl hne
      · exact ⟨z, hz, hassigns, rfl⟩
    · rintro ⟨z, hz, hassigns, rfl⟩
      exact ⟨⟨z, List.mem_cons_of_mem _ hz, hassigns, rfl⟩,
        ((List.pairwise_cons.1 h.apart).1 z hz hassigns).symm⟩
  opened y hopen := by
    rcases h.opened y (hnext.opened y hopen) with hy | hy
    · by_cases hxy : y = x.slot
      · subst hxy
        refine .inr (h.loose x List.mem_cons_self ?_ fun hs => hnext.settled hs hopen)
        -- What is pending is assigned by some code, and not by that behind `x`.
        obtain ⟨z, hz, hassigns, hslot⟩ := (h.pending _).1 hy
        rcases List.mem_cons.1 hz with rfl | hz
        · exact hassigns
        · exact absurd hslot.symm ((List.pairwise_cons.1 h.apart).1 z hz hassigns)
      · exact .inl ((hnext.pending y).2 ⟨hy, hxy⟩)
    · exact .inr hy
  apart := (List.pairwise_cons.1 h.apart).2
  quiet y hy := h.quiet y (List.mem_cons_of_mem _ hy)
  loose y hy hassigns hnot := h.loose y (List.mem_cons_of_mem _ hy) hassigns
    fun hs => hnot (hs.congr hnext.base)

/-- A notify is tied to an attribute that can change no more. -/
theorem Ready.not_open (h : F.Ready Loose scope (x :: xs)) (hx : ¬x.Assigns) : ¬F.Open x.slot := by
  intro hopen
  rcases h.opened _ hopen with hy | hy
  · obtain ⟨z, hz, hassigns, hslot⟩ := (h.pending _).1 hy
    rcases List.mem_cons.1 hz with rfl | hz
    · exact hx hassigns
    · exact (List.pairwise_cons.1 h.apart).1 z hz hassigns hslot.symm
  · exact h.quiet x List.mem_cons_self hx hy

/-- Tying all code runs no statement: with other statements the same happens. -/
theorem tieCode_scenes (hready : F.Ready Loose scope xs) (h : F.Scenes store s s')
    (g : List Statement → List Statement) :
    Twins (tieCode scope xs).run (tieCode scope (xs.map (Entry.recode g))).run s s'
      (Ends (fun e e' t t' => e' = e ∧ F.Holds store t t')
        fun _ _ => F.Holds store) := by
  induction xs generalizing F s s' with
  | nil => exact twins_run_pure h.holds
  | cons x rest ih =>
    have hassign (hx : x.2.2.kind ≠ .notify) : F.pending x.slot :=
      (hready.pending _).2 ⟨x, List.mem_cons_self, hx, rfl⟩
    have hnotify (hx : x.2.2.kind = .notify) : ¬F.Open x.slot :=
      hready.not_open fun hassigns => hassigns hx
    refine Twins.run_bind (tie_scenes hready.sound hready.idle h x.1.owner
      (x.1.node.label_recode g) x.2.1 x.1.object hassign hnotify g) ?_ fun _ _ _ _ => id
    rintro - - t t' ⟨F', hnext, ht⟩
    refine (ih (hready.next hnext) ht).mono fun r r' u u' hu => ?_
    cases hu with
    | error hu => exact .error ⟨hu.1, hu.2.of_next hnext⟩
    | ok hu => exact .ok (hu.of_next hnext)

end Fence

/-! ### Quiet views -/

namespace Fence

open Scene

variable {α : Type} {base : Nat} {scope : Scope} {names : List String} {ms : List Made}

/-- The fence around a view of which no code has been tied yet. -/
def around (base first : Nat) (xs : List Entry) : Fence where
  base := base
  first := first
  root := id
  pending y := ∃ x ∈ xs, x.Assigns ∧ x.slot = y
  bound _ _ := False
  outer _ := False

theorem open_around {first : Nat} {xs : List Entry} {y : Slot} :
    (around base first xs).Open y ↔ ∃ x ∈ xs, x.Assigns ∧ x.slot = y :=
  ⟨fun h => h.elim id fun ⟨_, hk⟩ => hk.elim, .inl⟩

theorem sound_around {first : Nat} {xs : List Entry} (h : ∀ x ∈ xs, base ≤ x.1.object.id) :
    (around base first xs).Sound where
  base y hy := by
    obtain ⟨x, hx, -, rfl⟩ := open_around.1 hy
    exact h x hx
  pending _ _ := rfl
  bound _ _ := False.elim
  apart _ _ _ := id

/-- The attribute is assigned by code that does not settle it. -/
def Loose (F : Fence) (scope : Scope) (xs : List Entry) (y : Slot) : Prop :=
  ∃ x ∈ xs, x.Assigns ∧ ¬F.Settles (x.scope scope) x.2.2 ∧ x.slot = y

theorem mem_code {x : Entry} :
    x ∈ code ms ↔ x.1 ∈ ms ∧ (x.2 ∈ x.1.node.assignments ∨ x.2 ∈ x.1.node.notifiers) := by
  unfold code Blueprint.bindings
  simp only [List.mem_flatMap, List.mem_map, List.mem_append]
  constructor
  · rintro ⟨m, hm, entry, hentry, rfl⟩
    exact ⟨hm, hentry⟩
  · rintro ⟨hm, hentry⟩
    exact ⟨x.1, hm, x.2, hentry, rfl⟩

/-- Code that reads none of some names settles an attribute, if all other names lead elsewhere. -/
theorem settles_of_reads {F : Fence} {binding : Binding}
    (hreads : ∀ name ∈ binding.reads, name ∉ names)
    (hscope : ∀ name ∉ names, Option.Rel (Value.Alike (.below F.base)) (scope.lookup? name)
      (scope.lookup? name)) : F.Settles scope binding := by
  cases binding with
  | default | notify => exact trivial
  | bind | delegate => exact fun name hname => hscope name (hreads name hname)

/-- Code of different entries that assign is tied to different attributes, and notifies come last. -/
theorem pairwise_code (hsorted : ∀ m ∈ ms, m.node.Sorted)
    (hdistinct : (ms.map (·.object.id)).Nodup) :
    (code ms).Pairwise fun x y : Entry => y.Assigns → x.slot ≠ y.slot := by
  refine List.pairwise_flatMap.2 ⟨fun m hm => ?_, ?_⟩
  · have hm := hsorted m hm
    refine List.pairwise_map.2 (List.pairwise_append.2 ⟨?_, ?_, ?_⟩)
    · exact (List.pairwise_map.1 hm.distinct).imp fun h _ hslot => h (congrArg Prod.snd hslot)
    · exact List.pairwise_of_forall_mem_list fun _ _ y hy hassigns =>
        absurd (hm.notifies y hy) hassigns
    · exact fun _ _ y hy hassigns => absurd (hm.notifies y hy) hassigns
  · refine (List.pairwise_map.1 hdistinct).imp fun hne x hx y hy _ hslot => hne ?_
    obtain ⟨_, -, rfl⟩ := List.mem_map.1 hx
    obtain ⟨_, -, rfl⟩ := List.mem_map.1 hy
    exact congrArg Prod.fst hslot

/-- All code of a quiet view is ready to be tied. -/
theorem ready_around (first : Nat) (hsorted : ∀ m ∈ ms, m.node.Sorted)
    (hdistinct : (ms.map (·.object.id)).Nodup) (hbase : ∀ m ∈ ms, base ≤ m.object.id)
    (hquiet : ∀ m ∈ ms, m.node.Quiet names)
    (hscope : ∀ x : Entry, ∀ name ∉ names, Option.Rel (Value.Alike (.below base))
      ((x.scope scope).lookup? name) ((x.scope scope).lookup? name)) :
    (around base first (code ms)).Ready ((around base first (code ms)).Loose scope (code ms)) scope
      (code ms) where
  sound := sound_around fun x hx => hbase x.1 (mem_code.1 hx).1
  idle _ := id
  pending _ := Iff.rfl
  opened y hy := .inl (open_around.1 hy)
  apart := pairwise_code hsorted hdistinct
  quiet x hx hnotify := by
    rintro ⟨z, hz, hassigns, hnot, hslot⟩
    obtain ⟨hm, hx⟩ := mem_code.1 hx
    obtain ⟨hm', hz⟩ := mem_code.1 hz
    have hsame : z.1 = x.1 := List.inj_on_of_nodup_map hdistinct hm' hm (congrArg Prod.fst hslot)
    have hattr : z.2.1 = x.2.1 := congrArg Prod.snd hslot
    have hnotifier := hx.resolve_left fun hx => hnotify ((hsorted _ hm).assigns _ hx)
    have hassignment := hz.resolve_right fun hz => hassigns ((hsorted _ hm').notifies _ hz)
    rw [hsame] at hassignment
    refine hnot (settles_of_reads (hquiet _ hm _ hassignment ?_) (hscope z))
    exact List.mem_map.2 ⟨x.2, hnotifier, hattr.symm⟩
  loose x hx hassigns hnot := ⟨x, hx, hassigns, hnot, rfl⟩

/-- A new view keeps to the fence around it. -/
theorem guards_around {net net' : Network} (h : net.Furnishes net')
    (hobservers : ∀ ob ∈ net.observers, ob.object < net.store.objects.size)
    (hclosed : net.store.Alike (.below net.store.objects.size) net.store) (xs : List Entry)
    (hbase : ∀ x ∈ xs, net.store.objects.size ≤ x.1.object.id) :
    (around net.store.objects.size net.links.size xs).Guards net.store net' := by
  have hhint {ob : Observer} (hob : ob ∈ net'.observers)
      (hnew : net.store.objects.size ≤ ob.object) : ∃ w, ob.handler = .hint w :=
    (h.observers ob hob).resolve_left fun hold => Nat.not_lt.2 hnew (hobservers ob hold)
  constructor
  · intro ob hob hopen
    obtain ⟨w, hw⟩ := hhint hob ((sound_around hbase).base _ hopen)
    rw [hw]
    exact trivial
  · rintro k ⟨x, hx⟩
    exact hx.elim
  · exact fun _ _ _ _ => False.elim
  · intro ob hob hnew k hk
    obtain ⟨w, hw⟩ := hhint hob hnew
    cases hw.symm.trans hk
  · exact (congrArg Array.size h.links).ge
  · exact fun id hid => .inl (h.objects id hid)
  · exact hclosed

end Fence

namespace Scene

variable {α : Type} {s : Scene α} {scope : Scope}

/-- All that is observed is there, and so is all that attributes refer to. -/
structure Closed (s : Scene α) : Prop where
  observers : ∀ ob ∈ s.network.observers, ob.object < s.objectCount
  store : ∀ obj ∈ s.network.store.objects, ∀ v ∈ obj.attrs.values, ∀ o ∈ v.references,
    o.id < s.objectCount

theorem Closed.alike (h : s.Closed) :
    s.network.store.Alike (.below s.objectCount) s.network.store := by
  rintro i _ ⟨rfl, hi⟩
  cases hobj : s.network.store.objects[i]? with
  | none => exact .none
  | some obj =>
    refine .some ⟨rfl, rfl, rfl, List.forall₂_same.2 fun entry hentry => ⟨rfl, ?_⟩⟩
    refine Value.alike_self _ (fun o ho => ⟨rfl, ?_⟩) fun _ _ => rfl
    exact h.store obj (Array.mem_of_getElem? hobj) _ (List.mem_map_of_mem hentry) o ho

/-- Names lead to what is there if the scope refers to nothing else. -/
theorem rel_lookup?_of_references {n : Nat} (h : ∀ o ∈ scope.references, o.id < n) (name : String) :
    Option.Rel (Value.Alike (.below n)) (scope.lookup? name) (scope.lookup? name) :=
  Scope.alikeOn_self (P := .below n) (fun o ho => ⟨rfl, h o ho⟩) (fun _ => rfl) [name] name
    (List.mem_singleton_self _)

end Scene

/-- What the code of a view sees besides the view. -/
def CompiledDocument.scope (v : CompiledDocument) (context : Namespace) : Scope :=
  ((({} : Scope).push v.imports).push context).push builtinNames

/-- The names that lead to what is made of a blueprint. -/
def Blueprint.names (b : Blueprint) : List String := "self" :: identifiers b.realized

namespace Scene

variable {α : Type} [Scalar α] {s : Scene α} {scope : Scope}

/-- Constructing makes everything, and then ties all code entry by entry. -/
theorem run_construct (b : Blueprint) (scope : Scope) (s : Scene α) :
    (construct b scope).run.run s = (tieCode (scope.push (build b Table.empty s).2.1)
      (code ((build b Table.empty s).2.2.made b (build b Table.empty s).1)) >>= fun _ =>
        pure { root := (build b Table.empty s).1, identifiers := (build b Table.empty s).2.1 } :
          Tying α View).run.run (build b Table.empty s).2.2 := by
  rw [ExceptT.run_bind, StateT.run_bind, ← run_tieAll]
  rfl

/-- The code of a new view sees nothing of it but by the names of the view. -/
theorem rel_lookup?_of_not_mem {base : Nat} {ms : List Made} {nodes : List Blueprint}
    (hnodes : ms.map Made.node = nodes) (hnodup : (Blueprint.identifiers nodes).Nodup)
    (hscope : ∀ name, Option.Rel (Value.Alike (.below base)) (scope.lookup? name)
      (scope.lookup? name)) (x : Entry) {name : String}
    (hname : name ∉ "self" :: Blueprint.identifiers nodes) :
    Option.Rel (Value.Alike (.below base))
      ((x.scope (scope.push (ms.foldl Made.identify Table.empty))).lookup? name)
      ((x.scope (scope.push (ms.foldl Made.identify Table.empty))).lookup? name) := by
  obtain ⟨hself, hname⟩ := not_or.1 (mt List.mem_cons.2 hname)
  have hidentifiers : (ms.foldl Made.identify Table.empty).get? name = none := by
    rw [Option.eq_none_iff_forall_ne_some]
    intro w hw
    rcases (get?_foldl_identify ms Table.empty name w (hnodes ▸ hnodup)).1 hw with
      ⟨m, hm, hid, -⟩ | ⟨-, hw⟩
    · exact hname (List.mem_filterMap.2 ⟨m.node, hnodes ▸ List.mem_map_of_mem hm, hid⟩)
    · cases hw
  have hlookup : (x.scope (scope.push (ms.foldl Made.identify Table.empty))).lookup? name
      = scope.lookup? name := by
    unfold Scope.lookup? Entry.scope Scope.push
    have hfirst : (Table.ofList [("self", Value.object x.1.object)]).get? name = none :=
      Table.get?_insert_ne Table.empty hself _
    rw [List.findSome?_cons, hfirst, List.findSome?_cons, hidentifiers]
  rw [hlookup]
  exact hscope name

/-- The scenes are the same but for the statements of bindings that are new, and what was there before
has its attributes until it is forgotten. -/
structure Recodes (s t t' : Scene α) : Prop where
  rest : t' = { t with network := t'.network }
  recoded : t.network.Recoded s.network.links.size t'.network
  kept : ∀ id < s.objectCount, s.network.store.Fades t.network.store id

/-- While a view is built whose notifies are quiet, no statement is run: with other statements the same
comes about, and what was there before keeps its attributes until it is forgotten. -/
theorem twins_construct {d : Document} {toolkit : Toolkit} {modules : Modules} {store : Store}
    {v : CompiledDocument} (hcompile : (d.compile toolkit modules store).1 = .ok v)
    (hquiet : ∀ b ∈ v.root.realized, b.Quiet v.root.names) (hclosed : s.Closed)
    (hscope : ∀ o ∈ scope.references, o.id < s.objectCount) (g : List Statement → List Statement) :
    Twins (construct v.root scope).run (construct (v.root.recode g) scope).run s s
      fun r r' t t' => r' = r ∧ s.Recodes t t' := by
  obtain ⟨hc, -, -, hbuilds⟩ := build_spec v.root Table.empty s
  have hmade := hbuilds.realizes (build v.root Table.empty s).2.2 fun _ _ _ => rfl
  have hfurnishes := furnishes_build v.root Table.empty s
  rw [← hc] at hmade
  have hleft := run_construct v.root scope s
  have hright := run_construct (v.root.recode g) scope s
  rw [build_recode, made_recode, code_recode] at hright
  generalize build v.root Table.empty s = x at *
  obtain ⟨c, identifiers, u⟩ := x
  dsimp only at *
  obtain rfl := hmade.names
  generalize u.made v.root c = ms at *
  have hnew : ∀ m ∈ ms, s.objectCount ≤ m.object.id := by
    intro m hm
    have hid := List.mem_map_of_mem (f := fun m : Made => m.object.id) hm
    rw [hmade.map_id] at hid
    exact (List.mem_range'_1.1 hid).1
  have hnodes : ∀ m ∈ ms, m.node ∈ v.root.realized := fun m hm =>
    hmade.map_node ▸ List.mem_map_of_mem hm
  have hnodup : (Blueprint.identifiers v.root.realized).Nodup :=
    (Document.identifiers_compile hcompile).2.sublist
      ((Blueprint.realized_sublist v.root).filterMap _)
  have hready := Fence.ready_around s.network.links.size
    (fun m hm => Document.sorted_compile hcompile _ (hnodes m hm))
    (hmade.map_id ▸ List.nodup_range') hnew (fun m hm => hquiet _ (hnodes m hm))
    fun x name hname => rel_lookup?_of_not_mem hmade.map_node hnodup (rel_lookup?_of_references hscope) x
      hname
  have hguards := Fence.guards_around hfurnishes hclosed.observers hclosed.alike (code ms)
    fun x hx => hnew x.1 (Fence.mem_code.1 hx).1
  have hrun := Fence.tieCode_scenes hready ⟨⟨hguards, .refl _ _⟩, rfl⟩ g
  have hdone {t t' : Scene α} (ht : (Fence.around s.objectCount s.network.links.size
      (code ms)).Holds s.network.store t t') : s.Recodes t t' := by
    obtain ⟨F, hbase, hfirst, hscenes⟩ := ht
    refine ⟨hscenes.rest, ?_, fun id hid => hscenes.nets.guards.kept id (hbase ▸ hid)⟩
    have hrecoded := hscenes.nets.recoded
    rwa [hfirst] at hrecoded
  let view : View := { root := c, identifiers := ms.foldl Made.identify Table.empty }
  let finish (xs : List Entry) : Tying α View :=
    tieCode (scope.push view.identifiers) xs >>= fun _ => pure view
  have hviews : Twins (finish (code ms)).run (finish ((code ms).map (Entry.recode g))).run u u
      (Ends (fun e e' t t' => e' = e ∧ s.Recodes t t') fun w w' t t' => w' = w ∧ s.Recodes t t') :=
    hrun.run_bind (fun _ _ _ _ ht => twins_run_pure ⟨rfl, hdone ht⟩)
      fun _ _ _ _ ht => ⟨ht.1, hdone ht.2⟩
  refine Twins.congr (hviews.mono fun r r' t t' ht => ?_) hleft hright
  cases ht with
  | error h => exact ⟨congrArg _ h.1, h.2⟩
  | ok h => exact ⟨congrArg _ h.1, h.2⟩

/-- While a view is built no notify is run, if whatever notifies are tied to does not follow the view:
with other statements the same is constructed, and what was there before keeps its attributes, whether
or not the view can be built. -/
theorem quiet_of_instantiate {d : Document} {toolkit : Toolkit} {modules : Modules} {store : Store}
    {v : CompiledDocument} (hcompile : (d.compile toolkit modules store).1 = .ok v)
    (hquiet : ∀ b ∈ v.root.realized, b.Quiet v.root.names) (hclosed : s.Closed) (context : Namespace)
    (hscope : ∀ o ∈ (v.scope context).references, o.id < s.objectCount) :
    (∀ g : List Statement → List Statement,
      Twins (construct v.root (v.scope context)).run (construct (v.root.recode g) (v.scope context)).run
        s s fun r r' t t' => r' = r ∧ s.Recodes t t') ∧
    Leads (instantiate v context).run s fun _ t => ∀ o, o.id < s.objectCount →
      t.network.store.isAlive o.id = true → t.network.store.attrs o = s.network.store.attrs o := by
  have htwins := twins_construct hcompile hquiet hclosed hscope
  refine ⟨htwins, ?_⟩
  have hkept : Leads (construct v.root (v.scope context)).run s fun _ t =>
      ∀ id < s.objectCount, s.network.store.Fades t.network.store id := (htwins id).2.kept
  have hfades : Leads (instantiate v context).run s fun _ t =>
      ∀ id < s.objectCount, s.network.store.Fades t.network.store id := by
    rw [instantiate_eq]
    refine hkept.run_bind (fun view t ht => ?_) fun _ _ => id
    refine leads_run_bind.2 (leads_run_adapt.2 ((wakes_activate view.root t).mono fun r u hu => ?_))
    have hstore : u.network.store = t.network.store := by rw [hu.network]
    cases r with
    | error => exact hstore ▸ ht
    | ok _ => exact leads_run_modify_bind.2 (leads_run_pure.2 (hstore ▸ ht))
  exact hfades.mono fun _ t ht (o : ObjectRef) ho halive => (ht o.id ho).attrs halive

theorem quiet_of_instantiate_sample :
    ∃ v, (Document.sample.compile Toolkit.common Document.sampleModules {}).1 = .ok v ∧
      (∃ b ∈ v.root.realized, b.notifiers ≠ []) ∧
      ∀ t, ((instantiate v Table.empty).run.run sampleModels).2 = t →
        ∀ o, o.id < sampleModels.objectCount → t.network.store.isAlive o.id = true →
          t.network.store.attrs o = sampleModels.network.store.attrs o := by
  have hok : (Document.sample.compile Toolkit.common Document.sampleModules {}).1.toOption.any
      (fun v => v.root.realized.all (fun b => decide (b.Quiet v.root.names)) &&
        v.root.realized.any (fun b => !b.notifiers.isEmpty) &&
        (v.scope Table.empty).references.all fun o => decide (o.id < sampleModels.objectCount))
        = true := by
    decide +kernel
  have hstore : sampleModels.network.store.objects.toList.all (fun obj => obj.attrs.values.all
      fun v => v.references.all fun o => decide (o.id < sampleModels.objectCount)) = true := by
    decide +kernel
  have hclosed : sampleModels.Closed := by
    refine ⟨List.forall_mem_nil _, fun obj hobj v hv o ho => ?_⟩
    have hvalues := List.all_eq_true.1 hstore obj (Array.mem_toList_iff.2 hobj)
    exact of_decide_eq_true (List.all_eq_true.1 (List.all_eq_true.1 hvalues v hv) o ho)
  cases hv : (Document.sample.compile Toolkit.common Document.sampleModules {}).1 with
  | error e =>
    rw [hv] at hok
    cases hok
  | ok v =>
    simp only [hv, Except.toOption, Option.any_some, Bool.and_eq_true, List.all_eq_true,
      decide_eq_true_eq, List.any_eq_true] at hok
    obtain ⟨⟨hquiet, b, hb, hnotifiers⟩, hscope⟩ := hok
    refine ⟨v, rfl, ⟨b, hb, fun hnil => by simp [hnil] at hnotifiers⟩, ?_⟩
    rintro t rfl
    exact (quiet_of_instantiate hv hquiet hclosed Table.empty hscope).2

/-- A model that is told what a label shows. -/
def seenModel : ObjectRef := ⟨0, "Model"⟩

/-- A scene with nothing but the model. -/
def sampleSeen : Scene ℚ where
  network :=
    { store := { objects := #[{ className := "Model", shape := .open
                                attrs := Table.ofList [("seen", .str "nothing")] }] }
      owners := [0] }

/-- A label that shows the text of the next one, and tells a model of each change. -/
def echoing : Document where
  body := [.element "Window" none [
    .element "Label" (some "a") [.binding .bind "text" "b.text",
      .binding .notify "text" "m.seen = new"],
    .element "Label" (some "b") [.binding .default "text" "'hi'"]]]

/-- The statement is run while the view is built: the label follows the next one, whose default comes
after the notify. -/
theorem not_quiet_of_instantiate : ¬ ∀ (d : Document) (v : CompiledDocument) (s t : Scene ℚ)
    (context : Namespace) (view : View), (d.compile Toolkit.common Table.empty {}).1 = .ok v →
      (instantiate v context).run.run s = (.ok view, t) →
      ∀ o, o.id < s.objectCount → t.network.store.isAlive o.id = true →
        t.network.store.attrs o = s.network.store.attrs o := by
  intro h
  have hok : (echoing.compile Toolkit.common Table.empty {}).1.toOption.any (fun v =>
      let p := (instantiate v (Table.ofList [("m", .object seenModel)])).run.run sampleSeen
      p.1.isOk && p.2.network.store.isAlive seenModel.id &&
        (p.2.network.store.get? seenModel "seen").any fun w => w.equal (.str "hi")) = true := by
    decide +kernel
  cases hv : (echoing.compile Toolkit.common Table.empty {}).1 with
  | error e =>
    rw [hv] at hok
    cases hok
  | ok v =>
    simp only [hv, Except.toOption, Option.any_some] at hok
    rcases hrun : (instantiate v (Table.ofList [("m", .object seenModel)])).run.run sampleSeen with
      ⟨_ | view, t⟩
    · rw [hrun] at hok
      cases hok
    · simp only [hrun, Bool.and_eq_true] at hok
      have hsame := h echoing v sampleSeen t _ view hv hrun seenModel Nat.one_pos hok.1.2
      have hseen := hok.2
      unfold Store.get? at hseen
      rw [hsame] at hseen
      exact absurd hseen (by decide)

end Scene

end ReactiveView
