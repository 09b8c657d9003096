import ReactiveView.Proofs.Component.Keeping
import ReactiveView.Proofs.Network.Keepers
import ReactiveView.Proofs.View.Tying

/-!
This module contains that the making of a view leaves alone what components had before, also if it
fails half way: new components keep all that is made for them, and the components before keep what
they kept.
-/

namespace ReactiveView

open Network

namespace Scene

variable {α : Type} {s t u : Scene α} {c k n : Nat} {H : Nat → Prop} {scope : Scope}

/-- Components from a number on have their children from that number on. -/
def Apart (n : Nat) (s : Scene α) : Prop := ∀ c, n ≤ c → ∀ d ∈ s.children c, n ≤ d

theorem children_parts (s : Scene α) (c : Nat) :
    s.children c = ((s.parts? c).map fun parts => parts.2.2).getD [] := by
  unfold children parts?
  cases s.component? c <;> rfl

theorem children_update (s : Scene α) (c k : Nat) {f : Component α → Component α}
    (h : ∀ a, (f a).children = a.children) : (s.update c f).children k = s.children k := by
  rw [children_parts, parts?_update, children_parts]
  split
  · unfold parts?
    rw [Option.map_map, Option.map_map]
    simp only [Function.comp_def, h]
  · rfl

theorem Keeps.apart (h : s.Keeps t) (hs : s.Apart n) : t.Apart n := by
  intro c hc d hd
  rw [children_parts, h.parts, ← children_parts] at hd
  exact hs c hc d hd

/-! ### Tying -/

/-- A step after which the components are the same, and that leaves to those before a number what is
theirs. -/
structure Attends (H : Nat → Prop) (n : Nat) (s t : Scene α) : Prop where
  respects : s.Respects H n t
  keeps : s.Keeps t

instance : Std.Refl (@Attends α H n) := ⟨fun s => ⟨Std.Refl.refl s, Std.Refl.refl s⟩⟩

instance : IsTrans (Scene α) (Attends H n) where
  trans _ _ _ h h' :=
    ⟨IsTrans.trans _ _ _ h.respects h'.respects, IsTrans.trans _ _ _ h.keeps h'.keeps⟩

theorem kept?_tied_ne (owner : Nat) (network : Network) (link : Nat) (h : c ≠ owner) :
    (s.tied owner network (some link)).kept? c = s.kept? c := by
  refine (kept?_update ..).trans ?_
  rw [if_neg h]
  exact congrFun (aloof_heedSignals _).kept c

theorem kept?_tied_self {owner : Nat} {links watchers : List Nat}
    (h : s.kept? owner = some (links, watchers)) (network : Network) (link : Nat) :
    (s.tied owner network (some link)).kept? owner = some (links ++ [link], watchers) := by
  have hbefore : ({ s with network } : Scene α).heedSignals.kept? owner = some (links, watchers) :=
    (congrFun (aloof_heedSignals _).kept owner).trans h
  obtain ⟨comp, hcomp, hpair⟩ := Option.map_eq_some_iff.1 hbefore
  cases hpair
  refine (kept?_update ..).trans ?_
  rw [if_pos rfl, hcomp]
  rfl

/-- What has been tied for a component is one more binding that it keeps. -/
theorem keeps_tied_some {owner : Nat} (howner : s.kept? owner ≠ none) {network : Network}
    {link : Nat} (hhandles : network.desk.handles = s.network.desk.handles) :
    (s.tied owner network (some link)).keeps = s.keeps.add (.component owner) link := by
  have hdesk : (s.tied owner network (some link)).network.desk = network.desk :=
    (aloof_heedSignals { s with network }).network.desk
  obtain ⟨⟨links, watchers⟩, hkept⟩ := Option.ne_none_iff_exists'.1 howner
  funext a i
  refine propext ?_
  unfold Keeping.add
  cases a with
  | host => simp
  | handle name => simp [hdesk, hhandles]
  | component c =>
    by_cases hc : c = owner
    · subst hc
      simp [kept?_tied_self hkept, hkept]
    · simp [kept?_tied_ne _ _ _ hc, hc]

theorem stands_tied_some {owner : Nat} (howner : s.kept? owner ≠ none) (network : Network)
    (link : Nat) : (s.tied owner network (some link)).stands H = s.stands H := by
  obtain ⟨⟨links, watchers⟩, hkept⟩ := Option.ne_none_iff_exists'.1 howner
  funext a i
  refine propext ?_
  cases a with
  | handle | host => rfl
  | component c =>
    by_cases hc : c = owner
    · subst hc
      simp [kept?_tied_self hkept, hkept]
    · simp [kept?_tied_ne _ _ _ hc]

theorem attends_heeded {binding : Binding} {target : ObjectRef} {attr : String} {network : Network}
    {r : Except EvalError (Option Nat)}
    (hrun : s.network.connect? binding target attr scope = some (r, network))
    (hr : ∀ link, r ≠ .ok (some link)) : s.Attends H n { s with network }.heedSignals := by
  refine ⟨IsTrans.trans _ _ _ ?_ (aloof_heedSignals _).respects, keeps_heedSignals s network⟩
  refine respects_of_tidied rfl rfl fun hs => ?_
  have htied := (retains nestingLimit).connect .host hs hrun
  have hsame : s.keeps.tie .host r = s.keeps := by
    rcases r with _ | _ | link
    · rfl
    · rfl
    · exact absurd rfl (hr link)
  rwa [hsame] at htied

theorem attends_tied {owner : Nat} (hn : n ≤ owner) (howner : s.kept? owner ≠ none)
    {binding : Binding} {target : ObjectRef} {attr : String} {network : Network} {link : Nat}
    (hrun : s.network.connect? binding target attr scope = some (.ok (some link), network)) :
    s.Attends H n (s.tied owner network (some link)) := by
  refine ⟨fun hs => ?_, keeps_tied ..⟩
  -- The network knows the binding as the component's before the component does, so no scene in
  -- between is tidy.
  have htied := (retains nestingLimit).connect (.component owner) hs hrun
  obtain ⟨htidy, hlasts⟩ := htied.bind fun h => h.echoes (aloof_heedSignals { s with network }).network
  refine ⟨?_, hlasts.mono stands_below, fun c hc => kept?_tied_ne _ _ _ (hc.trans_le hn).ne,
    (keeps_tied ..).count.ge⟩
  unfold Tidy
  rw [keeps_tied_some howner htied.lasts.handles, stands_tied_some howner]
  exact htidy

theorem attends_tie {owner : Nat} (hn : n ≤ owner) (howner : s.parts? owner ≠ none) (label : String)
    (target : ObjectRef) (scope : Scope) (attr : String) (binding : Binding) :
    Leads (tie owner label target scope attr binding).run s fun _ t => s.Attends H n t := by
  refine leads_run_get_bind.2 ?_
  split
  · exact leads_run_throw.2 (Std.Refl.refl s)
  · next result network hrun =>
    refine leads_run_set_bind.2 ?_
    split
    · exact leads_run_throw.2 (attends_heeded hrun nofun)
    · exact leads_run_pure.2 (attends_heeded hrun nofun)
    · have hkept : s.kept? owner ≠ none := fun hnone =>
        howner (Option.map_eq_none_iff.2 (kept?_eq_none_iff.1 hnone))
      exact leads_run_modify.2 (attends_tied hn hkept hrun)

/-- What ties some code, then what ties other code, whether or not that fails. -/
theorem attends_bind {x y : Tying α Unit} (hx : Leads x.run s fun _ t => s.Attends H n t)
    (hy : ∀ t, s.Keeps t → Leads y.run t fun _ u => t.Attends H n u) :
    Leads (x >>= fun _ => y).run s fun _ t => s.Attends H n t :=
  hx.run_bind (fun _ t ht => (hy t ht.keeps).mono fun _ _ => IsTrans.trans _ _ _ ht) fun _ _ h => h

theorem attends_tieTo {owner : Nat} (hn : n ≤ owner) (howner : s.parts? owner ≠ none) (b : Blueprint)
    (target : ObjectRef) (scope : Scope) :
    Leads (tieTo owner b target scope).run s fun _ t => s.Attends H n t := by
  unfold tieTo
  dsimp only
  generalize b.bindings = entries
  induction entries generalizing s with
  | nil => exact leads_run_pure.2 (Std.Refl.refl s)
  | cons entry rest ih =>
    exact attends_bind (attends_tie hn howner ..) fun t ht => ih (ht.parts ▸ howner)

theorem attends_tieNotes {owner : Nat} (hn : n ≤ owner) (howner : s.parts? owner ≠ none)
    (scope : Scope) (notes : List (Blueprint × ObjectRef)) :
    Leads (tieNotes owner scope notes).run s fun _ t => s.Attends H n t := by
  induction notes generalizing s with
  | nil => exact leads_run_pure.2 (Std.Refl.refl s)
  | cons note rest ih =>
    exact attends_bind (attends_tieTo hn howner ..) fun t ht => ih (ht.parts ▸ howner)

mutual

theorem attends_tieAll : (b : Blueprint) → (c : Nat) → (s : Scene α) → s.Apart n → n ≤ c →
    Leads (tieAll scope b c).run s fun _ t => s.Attends H n t
  | { children, notes, .. }, c, s, hs, hc => by
    rw [tieAll]
    refine leads_run_get_bind.2 ?_
    cases hcomp : s.component? c with
    | none => exact leads_run_pure.2 (Std.Refl.refl s)
    | some comp =>
      have hparts : s.parts? c ≠ none := by
        unfold parts?
        rw [hcomp]
        nofun
      have hkids : ∀ d ∈ comp.children, n ≤ d := fun d hd => hs c hc d (children_eq hcomp ▸ hd)
      refine attends_bind (attends_tieTo hc hparts ..) fun t ht => ?_
      refine attends_bind (attends_tieNotes hc (ht.parts ▸ hparts) ..) fun u hu => ?_
      exact attends_tieChildren children comp.children u (hu.apart (ht.apart hs)) hkids

theorem attends_tieChildren : (bs : List Blueprint) → (cs : List Nat) → (s : Scene α) →
    s.Apart n → (∀ c ∈ cs, n ≤ c) →
    Leads (tieChildren scope bs cs).run s fun _ t => s.Attends H n t
  | b :: rest, c :: more, s, hs, hcs => by
    rw [tieChildren]
    refine attends_bind (attends_tieAll b c s hs (hcs c (List.mem_cons_self ..))) fun t ht => ?_
    exact attends_tieChildren rest more t (ht.apart hs) fun d hd => hcs d (List.mem_cons_of_mem _ hd)
  | [], _, s, _, _ => leads_run_pure.2 (Std.Refl.refl s)
  | _ :: _, [], s, _, _ => leads_run_pure.2 (Std.Refl.refl s)

end

/-! ### Building -/

/-- A step of building. What is new stands apart. -/
structure Extends (H : Nat → Prop) (n : Nat) (s t : Scene α) : Prop where
  respects : s.Respects H n t
  apart : s.Apart n → t.Apart n
  count : s.components.size ≤ t.components.size

instance : Std.Refl (@Extends α H n) := ⟨fun s => ⟨Std.Refl.refl s, id, le_rfl⟩⟩

instance : IsTrans (Scene α) (Extends H n) where
  trans _ _ _ h h' := ⟨IsTrans.trans _ _ _ h.respects h'.respects, fun hs => h'.apart (h.apart hs),
    h.count.trans h'.count⟩

variable [Scalar α]

theorem children_newComponent (s : Scene α) (widgetClass : WidgetClass) (identifier : Option String)
    (c : Nat) : (s.newComponent widgetClass identifier).2.children c
      = if c = s.components.size then [] else s.children c := by
  obtain ⟨o, -, -, -, -, -, hparts⟩ := s.newComponent_spec widgetClass identifier
  rw [children_parts, hparts, children_parts s]
  split <;> rfl

/-- A new component keeps the subscriptions that follow its size hint, and no binding. -/
theorem newComponent_kept (s : Scene α) (widgetClass : WidgetClass) (identifier : Option String) :
    ∃ watchers : List Nat,
      (∀ c, (s.newComponent widgetClass identifier).2.kept? c
        = if c = s.components.size then some ([], watchers) else s.kept? c) ∧
      ∀ K W A, s.network.Tidy K W A →
        (s.newComponent widgetClass identifier).2.network.Tidy K
          (W.addAll (.component s.components.size) watchers) A ∧
        s.network.Lasts W (s.newComponent widgetClass identifier).2.network := by
  refine ⟨(watch
    { s.network with
      store := (widgetClass.newObject s.network.store).2
      owners := s.objectCount :: s.network.owners }
    (widgetClass.newObject s.network.store).1 s.components.size widgetClass.watched).1,
    fun c => ?_, fun K W A h => ?_⟩
  · unfold kept? component? newComponent
    dsimp only
    rw [Array.getElem?_push]
    split <;> rfl
  · obtain ⟨htidy, hlasts⟩ := h.create widgetClass.name .declared
      (Table.ofList widgetClass.attributes) (s.objectCount :: s.network.owners)
    obtain ⟨htidy', hlasts'⟩ := tidy_watch htidy (widgetClass.newObject s.network.store).1
      s.components.size (.component s.components.size) widgetClass.watched
    exact ⟨htidy', hlasts.trans hlasts'⟩

theorem extends_newComponent (hn : n ≤ s.components.size) (widgetClass : WidgetClass)
    (identifier : Option String) : s.Extends H n (s.newComponent widgetClass identifier).2 := by
  obtain ⟨watchers, hkept, htidied⟩ := s.newComponent_kept widgetClass identifier
  have hnew : s.kept? s.components.size = none := kept?_eq_none_iff.2 (component?_eq_none le_rfl)
  have hcount : s.components.size ≤ (s.newComponent widgetClass identifier).2.components.size :=
    (Nat.le_succ _).trans (Array.size_push _).ge
  refine ⟨fun hs => ?_, fun hs c hc d hd => ?_, hcount⟩
  · obtain ⟨htidy, hlasts⟩ := htidied _ _ _ hs
    have hkeeps : (s.newComponent widgetClass identifier).2.keeps = s.keeps := by
      funext a i
      refine propext ?_
      cases a with
      | host => simp
      | handle name => simp [hlasts.handles]
      | component c =>
        by_cases hc : c = s.components.size
        · subst hc
          simp [hkept, hnew]
        · simp [hkept, hc]
    have hstands : (s.newComponent widgetClass identifier).2.stands H
        = (s.stands H).addAll (.component s.components.size) watchers := by
      funext a i
      refine propext ?_
      unfold Keeping.addAll
      cases a with
      | host | handle => simp
      | component c =>
        by_cases hc : c = s.components.size
        · subst hc
          simp [hkept, hnew]
        · simp [hkept, hc]
    refine ⟨?_, hlasts.mono stands_below, fun c hc => ?_, hcount⟩
    · unfold Tidy
      rw [hkeeps, hstands]
      exact htidy
    · rw [hkept, if_neg (hc.trans_le hn).ne]
  · rw [children_newComponent] at hd
    split at hd
    · cases hd
    · exact hs c hc d hd

omit [Scalar α] in
theorem extends_newNote (c : Nat) (widgetClass : WidgetClass) :
    s.Extends H n (s.newNote c widgetClass).2 := by
  let network : Network :=
    { s.network with
      store := (widgetClass.newObject s.network.store).2
      owners := s.objectCount :: s.network.owners }
  let f (comp : Component α) : Component α :=
    { comp with notes := comp.notes ++ [(widgetClass.newObject s.network.store).1] }
  have hmade : s.Respects H n { s with network } :=
    respects_of_tidied rfl rfl fun hs => Tidy.create hs ..
  have hnoted := aloof_update { s with network } c (f := f) (fun _ => rfl) fun _ => rfl
  refine ⟨IsTrans.trans _ _ _ hmade hnoted.respects, fun hs k hk d hd => hs k hk d ?_,
    hnoted.count.ge⟩
  have hkids := children_update { s with network } c k (f := f) fun _ => rfl
  exact hkids ▸ hd

omit [Scalar α] in
theorem extends_attach (p : Nat) (hc : n ≤ c) : s.Extends H n (s.attach p c) := by
  refine ⟨(aloof_attach s p c).respects, fun hs k hk d hd => ?_, (size_attach s p c).ge⟩
  · rw [children_parts, parts?_attach, Option.map_map] at hd
    rcases hparts : s.parts? k with _ | ⟨o, os, cs⟩
    · rw [hparts] at hd
      cases hd
    · rw [hparts] at hd
      have hold : ∀ d ∈ cs, n ≤ d := fun d hd => hs k hk d (by rwa [children_parts, hparts])
      change d ∈ if k = p then cs ++ [c] else cs at hd
      split at hd
      · rcases List.mem_append.1 hd with hd | hd
        · exact hold d hd
        · exact List.mem_singleton.1 hd ▸ hc
      · exact hold d hd

omit [Scalar α] in
theorem extends_buildNotes (c : Nat) (notes : List Blueprint) (identifiers : Namespace)
    (s : Scene α) : s.Extends H n (buildNotes c notes identifiers s).2 := by
  induction notes generalizing identifiers s with
  | nil => exact Std.Refl.refl s
  | cons note rest ih => exact IsTrans.trans _ _ _ (extends_newNote c note.widgetClass) (ih _ _)

mutual

theorem extends_build (H : Nat → Prop) : (b : Blueprint) → (identifiers : Namespace) →
    (s : Scene α) → n ≤ s.components.size → s.Extends H n (build b identifiers s).2.2
  | { widgetClass, identifier, children, notes, .. }, identifiers, s, hn => by
    have hnew := extends_newComponent (H := H) hn widgetClass identifier
    rw [build]
    generalize s.newComponent widgetClass identifier = x at *
    obtain ⟨c, t⟩ := x
    dsimp only at hnew ⊢
    have hrest (ids : Namespace) : s.Extends H n
        (buildChildren c children (buildNotes c notes ids t).1 (buildNotes c notes ids t).2).2 := by
      have hnotes := extends_buildNotes (H := H) (n := n) c notes ids t
      have hcount := hn.trans (hnew.count.trans hnotes.count)
      exact IsTrans.trans _ _ _ hnew (IsTrans.trans _ _ _ hnotes
        (extends_buildChildren H c children _ _ hcount))
    exact hrest _

theorem extends_buildChildren (H : Nat → Prop) (p : Nat) : (bs : List Blueprint) →
    (identifiers : Namespace) → (s : Scene α) → n ≤ s.components.size →
    s.Extends H n (buildChildren p bs identifiers s).2
  | [], _, s, _ => Std.Refl.refl s
  | b :: rest, identifiers, s, hn => by
    obtain ⟨hc, -, -, -⟩ := build_spec b identifiers s
    have hfirst := extends_build H b identifiers s hn
    rw [buildChildren]
    generalize build b identifiers s = x at *
    obtain ⟨c, ids, t⟩ := x
    dsimp only at hc hfirst ⊢
    have hattach : t.Extends H n (t.attach p c) := extends_attach p (hn.trans hc.ge)
    have hcount := hn.trans (hfirst.count.trans hattach.count)
    exact IsTrans.trans _ _ _ hfirst (IsTrans.trans _ _ _ hattach
      (extends_buildChildren H p rest ids _ hcount))

end

/-! ### Whole views -/

omit [Scalar α] in
theorem apart_size (s : Scene α) : s.Apart s.components.size := by
  intro c hc d hd
  unfold children at hd
  rw [component?_eq_none hc] at hd
  cases hd

/-- Whether or not a view can be built, the components before keep what they kept. -/
theorem respects_instantiate (H : Nat → Prop) (compiled : CompiledDocument) (context : Namespace)
    (s : Scene α) : Leads (instantiate compiled context).run s fun _ t =>
      s.Respects H s.components.size t := by
  have hbuilt := extends_build H (n := s.components.size) compiled.root Table.empty s le_rfl
  obtain ⟨hroot, -, -, -⟩ := build_spec compiled.root Table.empty s
  refine leads_run_modifyGet_bind.2 ?_
  refine (attends_tieAll compiled.root _ _ (hbuilt.apart s.apart_size) hroot.ge).run_bind
    (fun _ t ht => ?_) fun _ t ht => IsTrans.trans _ _ _ hbuilt.respects ht.respects
  have hdone := IsTrans.trans _ _ _ hbuilt.respects ht.respects
  refine leads_run_bind.2 (leads_run_adapt.2 ?_)
  refine (wakes_activate _ t).mono fun r u hu => ?_
  have hactive := IsTrans.trans _ _ _ hdone hu.aloof.respects
  cases r with
  | error => exact hactive
  | ok _ =>
    refine leads_run_modify_bind.2 (leads_run_pure.2 ?_)
    exact IsTrans.trans _ _ _ hactive (inner_note ..).aloof.respects

end Scene

end ReactiveView
