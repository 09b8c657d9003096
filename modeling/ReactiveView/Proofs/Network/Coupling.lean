import ReactiveView.Proofs.Network.Steps
import ReactiveView.Proofs.Value.Pairing
import Mathlib

/-!
This module contains the comparison of two networks on which the same happens. A likeness says which
values, attributes and bindings of the one correspond to which of the other. If single steps keep it,
then so does a change with all that it sets off, and both come to corresponding results.
-/

namespace ReactiveView

open Network Cascade

/-! ### Computations that agree -/

section

variable {β β' γ γ' : Type} {R R' : Network → Network → Prop} {P : β → β' → Prop}
  {Q : γ → γ' → Prop} {a b : Network}

/-- Two computations come to results and networks that correspond, or both to nothing. -/
def Agree (R : Network → Network → Prop) (P : β → β' → Prop) (x : Option (β × Network))
    (y : Option (β' × Network)) : Prop :=
  Option.Rel (fun p q => P p.1 q.1 ∧ R p.2 q.2) x y

theorem agree_pure {r : β} {r' : β'} (hr : P r r') (h : R a b) :
    Agree R P ((pure r : Cascade β) a) ((pure r' : Cascade β') b) := .some ⟨hr, h⟩

theorem Agree.bind {x : Cascade β} {y : Cascade β'} {f : β → Cascade γ} {g : β' → Cascade γ'}
    (h : Agree R P (x a) (y b))
    (hf : ∀ r r' a' b', P r r' → R a' b' → Agree R' Q (f r a') (g r' b')) :
    Agree R' Q ((x >>= f) a) ((y >>= g) b) := by
  change Agree R' Q ((x a).bind fun p => f p.1 p.2) ((y b).bind fun p => g p.1 p.2)
  unfold Agree at h
  generalize x a = p at h ⊢
  generalize y b = q at h ⊢
  cases h with
  | none => exact .none
  | some hpair => exact hf _ _ _ _ hpair.1 hpair.2

theorem agree_get_bind {f : Network → Cascade γ} {g : Network → Cascade γ'}
    (h : Agree R Q (f a a) (g b b)) : Agree R Q ((get >>= f) a) ((get >>= g) b) := h

theorem agree_set_bind {a' b' : Network} {f : PUnit → Cascade γ} {g : PUnit → Cascade γ'}
    (h : Agree R Q (f ⟨⟩ a') (g ⟨⟩ b')) : Agree R Q ((set a' >>= f) a) ((set b' >>= g) b) := h

theorem agree_modify {f g : Network → Network} (h : R (f a) (g b)) :
    Agree R (fun _ _ => True) ((modify f : Cascade PUnit) a) ((modify g : Cascade PUnit) b) :=
  .some ⟨trivial, h⟩

theorem agree_modify_bind {f g : Network → Network} {k : PUnit → Cascade γ} {l : PUnit → Cascade γ'}
    (h : Agree R Q (k ⟨⟩ (f a)) (l ⟨⟩ (g b))) :
    Agree R Q ((modify f >>= k) a) ((modify g >>= l) b) := h

theorem agree_evaluate_bind {scope scope' : Scope} {e e' : Expr}
    {f : Except EvalError Value × List Dependency → Cascade γ}
    {g : Except EvalError Value × List Dependency → Cascade γ'}
    (h : Agree R Q (f ((a.outcome scope e).1, (a.outcome scope e).2.reads) (a.evaluated scope e))
      (g ((b.outcome scope' e').1, (b.outcome scope' e').2.reads) (b.evaluated scope' e'))) :
    Agree R Q ((evaluate scope e >>= f) a) ((evaluate scope' e' >>= g) b) := h

/-- Objects are let go on both sides at the end. -/
theorem agree_holding {is is' : List Nat} {x : Cascade β} {y : Cascade β'}
    (h : Agree R P (x (a.hold is)) (y (b.hold is')))
    (hletGo : ∀ a' b', R a' b' → R' (a'.letGo a.busy) (b'.letGo b.busy)) :
    Agree R' P (holding is x a) (holding is' y b) :=
  agree_get_bind <| agree_modify_bind <| h.bind fun _ _ _ _ hr h' =>
    agree_modify_bind (agree_pure hr (hletGo _ _ h'))

theorem Agree.forM {ι ι' : Type} {S : ι → ι' → Prop} {is : List ι} {js : List ι'}
    {f : ι → Cascade PUnit} {g : ι' → Cascade PUnit} (h : List.Forall₂ S is js)
    (hf : ∀ i j a b, S i j → R a b → Agree R (fun _ _ => True) (f i a) (g j b)) (hab : R a b) :
    Agree R (fun _ _ => True) (is.forM f a) (js.forM g b) := by
  induction h generalizing a b with
  | nil => exact agree_pure trivial hab
  | cons hhead _ ih => exact (hf _ _ a b hhead hab).bind fun _ _ _ _ _ h => ih h

end

/-! ### Likeness -/

/--
What of one network corresponds to what of another.
-/
structure Likeness where
  /-- The networks. -/
  nets : Network → Network → Prop
  /-- Values. -/
  values : Value → Value → Prop
  /-- Objects, by identity. -/
  ids : Nat → Nat → Prop
  /-- Attributes of objects that are assigned. -/
  slots : ObjectRef → ObjectRef → String → Prop
  /-- Bindings that are run. -/
  links : Nat → Nat → Prop
  /-- Widgets whose size hints are followed. -/
  widgets : Nat → Nat → Prop
  /-- Scopes of code. -/
  scopes : Scope → Scope → Prop
  /-- Whether statements are run. -/
  runs : Prop

namespace Likeness

variable (L : Likeness)

/-- Handlers that do what corresponds. -/
inductive Handlers : Handler → Handler → Prop
  | refresh {k k' : Nat} (h : L.links k k') : Handlers (.refresh k) (.refresh k')
  | run {k k' : Nat} (h : L.links k k') (hruns : L.runs) : Handlers (.run k) (.run k')
  | writeThrough {o o' : ObjectRef} {attr : String} (h : L.slots o o' attr) :
      Handlers (.writeThrough o attr) (.writeThrough o' attr)
  | writeBack {o o' : ObjectRef} {attr : String} (h : L.slots o o' attr) :
      Handlers (.writeBack o attr) (.writeBack o' attr)
  | hint {w w' : Nat} (h : L.widgets w w') : Handlers (.hint w) (.hint w')
  | host (id : String) : Handlers (.host id []) (.host id [])

/-- Bindings that do what corresponds. -/
inductive Bodies : LinkBody → LinkBody → Prop
  | bind {e : Expr} {o o' : ObjectRef} {attr : String} {scope scope' : Scope}
      (htarget : L.slots o o' attr) (hscope : L.scopes scope scope') :
      Bodies (.bind e o attr scope) (.bind e o' attr scope')
  | delegate : Bodies .delegate .delegate
  | notify {statements statements' : List Statement} {scope scope' : Scope}
      (h : L.runs → statements = statements' ∧ L.scopes scope scope') :
      Bodies (.notify statements scope) (.notify statements' scope')

/-- Changes that correspond. -/
structure Changes (c c' : Change) : Prop where
  slot : L.slots c.object c'.object c.attr
  attr : c'.attr = c.attr
  old : L.values c.old c'.old
  new : L.values c.new c'.new

/-- What assignments of values that correspond come to. -/
inductive Assignments (a b : Network) (o o' : ObjectRef) (attr : String) :
    Except EvalError Assignment → Except EvalError Assignment → Prop
  | refused (e : EvalError) : Assignments a b o o' attr (.error e) (.error e)
  | unchanged : Assignments a b o o' attr (.ok .unchanged) (.ok .unchanged)
  | changed {store store' : Store} {old old' : Value}
      (hnets : L.nets { a with store } { b with store := store' }) (hold : L.values old old')
      (hhandlers : List.Forall₂ (fun x y => L.Handlers x.handler y.handler)
        (a.observersOf o.id attr) (b.observersOf o'.id attr)) :
      Assignments a b o o' attr (.ok (.changed store old)) (.ok (.changed store' old'))

/-- What evaluations of the same code come to. -/
structure Outcomes (r r' : Except EvalError Value × Trail) : Prop where
  result : Results L.values r.1 r'.1
  reads : List.Forall₂ L.ids (r.2.reads.map (·.object.id)) (r'.2.reads.map (·.object.id))

/-- Values that correspond are objects both, or neither is. -/
inductive Kinds : Value → Value → Prop
  | object {o o' : ObjectRef} (h : L.runs → ∀ attr, L.slots o o' attr) :
      Kinds (.object o) (.object o')
  | other {v v' : Value} (hv : v.asObject? = none) (hv' : v'.asObject? = none)
      (htype : v'.typeName = v.typeName) : Kinds v v'

/--
A likeness that single steps keep.
-/
structure Lawful : Prop where
  assign : ∀ {a b o o' attr v v'}, L.nets a b → L.slots o o' attr → L.values v v' →
    L.Assignments a b o o' attr (a.store.assign o attr v) (b.store.assign o' attr v')
  hold : ∀ {a b is is'}, L.nets a b → List.Forall₂ L.ids is is' → L.nets (a.hold is) (b.hold is')
  letGo : ∀ {a b a' b'}, L.nets a b → L.nets a' b' → L.nets (a'.letGo a.busy) (b'.letGo b.busy)
  ids : ∀ {o o' attr}, L.slots o o' attr → L.ids o.id o'.id
  references : ∀ {v v'}, L.values v v' →
    List.Forall₂ L.ids (v.references.map ObjectRef.id) (v'.references.map ObjectRef.id)
  note : ∀ {a b} (level : Level) (message : String) (fields : List (String × String)),
    L.nets a b → L.nets (a.note level message fields) (b.note level message fields)
  signal : ∀ {a b w w'}, L.nets a b → L.widgets w w' →
    L.nets { a with signals := a.signals ++ [w] } { b with signals := b.signals ++ [w'] }
  happened : ∀ {a b c c'} (id : String), L.nets a b → L.Changes c c' →
    L.nets (a.happened (.changed id c)) (b.happened (.changed id c'))
  describe : ∀ {a b o o' attr}, L.nets a b → L.slots o o' attr →
    b.store.describe o' = a.store.describe o
  alive : ∀ {a b o o' attr}, L.nets a b → L.slots o o' attr →
    b.store.isAlive o'.id = a.store.isAlive o.id
  link : ∀ {a b k k'}, L.nets a b → L.links k k' →
    Option.Rel (fun lk lk' => L.Bodies lk.body lk'.body) (a.link? k) (b.link? k')
  enter : ∀ {a b k k'}, L.nets a b → L.links k k' → L.nets (a.enterLink k) (b.enterLink k')
  leave : ∀ {a b k k'}, L.nets a b → L.links k k' → L.nets (a.leaveLink k) (b.leaveLink k')
  outcome : ∀ {a b scope scope'} (e : Expr), L.nets a b → L.scopes scope scope' →
    L.Outcomes (a.outcome scope e) (b.outcome scope' e)
  evaluated : ∀ {a b scope scope'} (e : Expr), L.nets a b → L.scopes scope scope' →
    L.nets (a.evaluated scope e) (b.evaluated scope' e)
  disconnect : ∀ {a b k k'}, L.nets a b → L.links k k' → L.nets (a.disconnect k) (b.disconnect k')
  resubscribed : ∀ {a b k k' e o o' attr scope scope'}, L.nets a b → L.links k k' →
    L.scopes scope scope' → a.HasBind k e o attr scope → b.HasBind k' e o' attr scope' →
    L.nets (a.resubscribed k scope e) (b.resubscribed k' scope' e)
  names : ∀ {scope scope' c c'}, L.runs → L.scopes scope scope' → L.Changes c c' →
    L.scopes (scope.push c.names) (scope'.push c'.names)
  kinds : ∀ {v v'}, L.values v v' → L.Kinds v v'

variable {L} {n : Nat} {a b : Network} {β β' : Type} {P : β → β' → Prop}

theorem Lawful.evaluate (hL : L.Lawful) {scope scope' : Scope} (h : L.nets a b)
    (hscope : L.scopes scope scope') (e : Expr) :
    Agree L.nets (fun r r' => Results L.values r.1 r'.1) (evaluate scope e a)
      (evaluate scope' e b) :=
  .some ⟨(hL.outcome e h hscope).result, hL.evaluated e h hscope⟩

theorem Lawful.agree_held (hL : L.Lawful) {is is' : List Nat} {x : Cascade β} {y : Cascade β'}
    (h : L.nets a b) (his : List.Forall₂ L.ids is is')
    (hx : L.nets (a.hold is) (b.hold is') → Agree L.nets P (x (a.hold is)) (y (b.hold is'))) :
    Agree L.nets P (holding is x a) (holding is' y b) :=
  agree_holding (hx (hL.hold h his)) fun _ _ h' => hL.letGo h h'

theorem Lawful.warn (hL : L.Lawful) (h : L.nets a b) (message widget attr : String) (e : EvalError) :
    Agree L.nets (fun _ _ => True) (warn message widget attr e a) (warn message widget attr e b) :=
  agree_modify (hL.note .warn message _ h)

theorem Lawful.change_ids (hL : L.Lawful) {c c' : Change} (h : L.Changes c c') :
    List.Forall₂ L.ids c.references c'.references := by
  refine .cons (hL.ids h.slot) ?_
  rw [List.map_append, List.map_append]
  exact List.rel_append (hL.references h.old) (hL.references h.new)

/-! ### The induction -/

/--
What every computation with a budget does on networks that correspond.
-/
structure Agreeing (L : Likeness) (n : Nat) : Prop where
  assign : ∀ {a b o o' attr v v'}, L.nets a b → L.slots o o' attr → L.values v v' →
    Agree L.nets Eq (ReactiveView.assign n o attr v a) (ReactiveView.assign n o' attr v' b)
  announce : ∀ {a b c c'}, L.nets a b → L.Changes c c' →
    List.Forall₂ (fun x y => L.Handlers x.handler y.handler)
      (a.observersOf c.object.id c.attr) (b.observersOf c'.object.id c'.attr) →
    Agree L.nets (fun _ _ => True) (ReactiveView.announce n c a) (ReactiveView.announce n c' b)
  react : ∀ {a b c c' h h'}, L.nets a b → L.Changes c c' → L.Handlers h h' →
    Agree L.nets (fun _ _ => True) (ReactiveView.react n c h a) (ReactiveView.react n c' h' b)
  refresh : ∀ {a b k k'}, L.nets a b → L.links k k' →
    Agree L.nets Eq (ReactiveView.refresh n k a) (ReactiveView.refresh n k' b)
  execute : ∀ {a b scope scope'} (statements : List Statement), L.runs → L.nets a b →
    L.scopes scope scope' →
    Agree L.nets Eq (ReactiveView.execute n scope statements a)
      (ReactiveView.execute n scope' statements b)
  executeOne : ∀ {a b scope scope'} (statement : Statement), L.runs → L.nets a b →
    L.scopes scope scope' →
    Agree L.nets Eq (ReactiveView.executeOne n scope statement a)
      (ReactiveView.executeOne n scope' statement b)

namespace Agreeing

theorem zero : Agreeing L 0 := by
  constructor <;> intros <;> exact .none

section

variable (hL : L.Lawful) (h : Agreeing L n) (hnets : L.nets a b)

include hL h hnets

theorem assigns {o o' : ObjectRef} {attr : String} {v v' : Value} (hslot : L.slots o o' attr)
    (hv : L.values v v') :
    Agree L.nets Eq (ReactiveView.assign (n + 1) o attr v a)
      (ReactiveView.assign (n + 1) o' attr v' b) := by
  unfold ReactiveView.assign
  refine agree_get_bind ?_
  have hassign := hL.assign hnets hslot hv
  generalize a.store.assign o attr v = p at hassign ⊢
  generalize b.store.assign o' attr v' = q at hassign ⊢
  cases hassign with
  | refused e => exact agree_pure rfl hnets
  | unchanged => exact agree_pure rfl hnets
  | changed hstores hold hhandlers =>
    refine agree_set_bind ?_
    have hchange : L.Changes ⟨o, attr, _, v⟩ ⟨o', attr, _, v'⟩ := ⟨hslot, rfl, hold, hv⟩
    exact (h.announce hstores hchange hhandlers).bind fun _ _ _ _ _ h' => agree_pure rfl h'

theorem announces {c c' : Change} (hchange : L.Changes c c')
    (hhandlers : List.Forall₂ (fun x y => L.Handlers x.handler y.handler)
      (a.observersOf c.object.id c.attr) (b.observersOf c'.object.id c'.attr)) :
    Agree L.nets (fun _ _ => True) (ReactiveView.announce (n + 1) c a)
      (ReactiveView.announce (n + 1) c' b) := by
  unfold ReactiveView.announce
  refine agree_get_bind (hL.agree_held hnets (hL.change_ids hchange) fun hheld => ?_)
  exact Agree.forM hhandlers (fun _ _ _ _ hh h' => h.react h' hchange hh) hheld

/-- Both pass a new value on, or the object that takes it is gone from both. -/
theorem passes {c c' : Change} (hchange : L.Changes c c') {o o' : ObjectRef} {attr noted : String}
    (hslot : L.slots o o' attr) (message : String) {widget widget' : Network → String}
    (hwidget : ∀ {a' b'}, L.nets a' b' → widget' b' = widget a') :
    Agree L.nets (fun _ _ => True)
      ((do
        if (← get).store.isAlive o.id then
          match ← ReactiveView.assign n o attr c.new with
          | .ok _ => pure ()
          | .error e => warn message (widget (← get)) noted e : Cascade Unit) a)
      ((do
        if (← get).store.isAlive o'.id then
          match ← ReactiveView.assign n o' attr c'.new with
          | .ok _ => pure ()
          | .error e => warn message (widget' (← get)) noted e : Cascade Unit) b) := by
  refine agree_get_bind ?_
  rw [hL.alive hnets hslot]
  split
  · refine (h.assign hnets hslot hchange.new).bind fun r _ a' b' hr h' => ?_
    subst hr
    cases r with
    | ok _ => exact agree_pure trivial h'
    | error e =>
      refine agree_get_bind ?_
      rw [hwidget h']
      exact hL.warn h' _ _ _ e
  · exact agree_pure trivial hnets

theorem reacts {c c' : Change} (hchange : L.Changes c c') {x x' : Handler}
    (hhandlers : L.Handlers x x') :
    Agree L.nets (fun _ _ => True) (ReactiveView.react (n + 1) c x a)
      (ReactiveView.react (n + 1) c' x' b) := by
  cases hhandlers with
  | @refresh k k' hlink =>
    unfold ReactiveView.react
    refine agree_get_bind ?_
    have hlinks := hL.link hnets hlink
    rcases hk : a.link? k with _ | ⟨body, _, _, _, _⟩ <;>
      rcases hk' : b.link? k' with _ | ⟨body', _, _, _, _⟩ <;> rw [hk, hk'] at hlinks
    · exact agree_pure trivial hnets
    · cases hlinks
    · cases hlinks
    · cases hlinks with
      | some hbodies =>
        cases hbodies with
        | delegate => exact agree_pure trivial hnets
        | notify => exact agree_pure trivial hnets
        | bind htarget _ =>
          refine agree_modify_bind ?_
          refine (h.refresh (hL.enter hnets hlink) hlink).bind fun r _ a' b' hr h' => ?_
          subst hr
          cases r with
          | ok _ => exact agree_modify (hL.leave h' hlink)
          | error e =>
            refine agree_get_bind ?_
            rw [hL.alive h' htarget, hL.describe h' htarget]
            refine (hL.warn h' _ _ _ e).bind fun _ _ _ _ _ h'' => ?_
            exact agree_modify (hL.leave h'' hlink)
  | @run k k' hlink hruns =>
    unfold ReactiveView.react
    refine agree_get_bind ?_
    have hlinks := hL.link hnets hlink
    rcases hk : a.link? k with _ | ⟨body, _, _, _, _⟩ <;>
      rcases hk' : b.link? k' with _ | ⟨body', _, _, _, _⟩ <;> rw [hk, hk'] at hlinks
    · exact agree_pure trivial hnets
    · cases hlinks
    · cases hlinks
    · cases hlinks with
      | some hbodies =>
        cases hbodies with
        | delegate => exact agree_pure trivial hnets
        | bind => exact agree_pure trivial hnets
        | notify hcode =>
          obtain ⟨rfl, hscope⟩ := hcode hruns
          refine agree_modify_bind ?_
          have hnames := hL.names hruns hscope hchange
          refine (h.execute _ hruns (hL.enter hnets hlink) hnames).bind fun r _ a' b' hr h' => ?_
          subst hr
          cases r with
          | ok _ => exact agree_modify (hL.leave h' hlink)
          | error e =>
            refine agree_get_bind ?_
            rw [hL.describe h' hchange.slot, hchange.attr]
            refine (hL.warn h' _ _ _ e).bind fun _ _ _ _ _ h'' => ?_
            exact agree_modify (hL.leave h'' hlink)
  | writeThrough hslot =>
    unfold ReactiveView.react
    rw [hchange.attr]
    exact passes hL h hnets hchange hslot _ fun h' => hL.describe h' hchange.slot
  | writeBack hslot =>
    unfold ReactiveView.react
    exact passes hL h hnets hchange hslot _ fun h' => hL.describe h' hslot
  | hint hwidget =>
    unfold ReactiveView.react
    exact agree_modify (hL.signal hnets hwidget)
  | host id =>
    unfold ReactiveView.react
    exact agree_modify_bind (agree_pure trivial (hL.happened id hnets hchange))

/-- A bind subscribes to what it reads now, and then assigns. -/
theorem refreshes {k k' : Nat} (hlink : L.links k k') :
    Agree L.nets Eq (ReactiveView.refresh (n + 1) k a) (ReactiveView.refresh (n + 1) k' b) := by
  unfold ReactiveView.refresh
  refine agree_get_bind ?_
  have hlinks := hL.link hnets hlink
  rcases hk : a.link? k with _ | ⟨body, _, _, _, _⟩ <;>
    rcases hk' : b.link? k' with _ | ⟨body', _, _, _, _⟩ <;> rw [hk, hk'] at hlinks
  · exact agree_pure rfl hnets
  · cases hlinks
  · cases hlinks
  · cases hlinks with
    | some hbodies =>
      cases hbodies with
      | delegate => exact agree_pure rfl hnets
      | notify => exact agree_pure rfl hnets
      | @bind e o o' attr scope scope' htarget hscope =>
        have houtcome := hL.outcome e (hL.disconnect hnets hlink) hscope
        have hsubscribed := hL.resubscribed hnets hlink hscope ⟨_, hk, rfl⟩ ⟨_, hk', rfl⟩
        have hresult := houtcome.result
        refine agree_modify_bind (agree_evaluate_bind (agree_modify_bind ?_))
        change Agree L.nets Eq
          ((?f : Network → Option (Except EvalError Unit × Network)) (a.resubscribed k scope e))
          ((?g : Network → Option (Except EvalError Unit × Network)) (b.resubscribed k' scope' e))
        rcases hr : ((a.disconnect k).outcome scope e).1 with _ | v <;>
          rcases hr' : ((b.disconnect k').outcome scope' e).1 with _ | v' <;>
          rw [hr, hr'] at hresult <;> cases hresult
        · exact agree_pure rfl hsubscribed
        · next hv =>
          refine agree_get_bind ?_
          rw [hL.alive hsubscribed htarget]
          split
          · refine Agree.bind (hL.agree_held hsubscribed houtcome.reads fun hheld =>
              h.assign hheld htarget hv) fun r _ a' b' hr h' => ?_
            subst hr
            cases r with
            | ok _ => exact agree_pure rfl h'
            | error e => exact agree_pure rfl h'
          · exact agree_pure rfl hsubscribed

omit hL in
theorem executes (statements : List Statement) {scope scope' : Scope} (hruns : L.runs)
    (hscope : L.scopes scope scope') :
    Agree L.nets Eq (ReactiveView.execute (n + 1) scope statements a)
      (ReactiveView.execute (n + 1) scope' statements b) := by
  unfold ReactiveView.execute
  induction statements generalizing a b with
  | nil => exact agree_pure rfl hnets
  | cons statement rest ih =>
    unfold untilError
    refine (h.executeOne statement hruns hnets hscope).bind fun r _ a' b' hr h' => ?_
    subst hr
    cases r with
    | ok _ => exact ih h'
    | error e => exact agree_pure rfl h'

theorem executesOne (statement : Statement) {scope scope' : Scope} (hruns : L.runs)
    (hscope : L.scopes scope scope') :
    Agree L.nets Eq (ReactiveView.executeOne (n + 1) scope statement a)
      (ReactiveView.executeOne (n + 1) scope' statement b) := by
  cases statement with
  | expr e =>
    unfold ReactiveView.executeOne
    refine (hL.evaluate hnets hscope e).bind fun r r' a' b' hr h' => ?_
    obtain ⟨r, reads⟩ := r
    obtain ⟨r', reads'⟩ := r'
    cases hr with
    | ok => exact agree_pure rfl h'
    | error => exact agree_pure rfl h'
  | assign object attr value =>
    unfold ReactiveView.executeOne
    refine (hL.evaluate hnets hscope object).bind fun r r' a' b' hr h' => ?_
    obtain ⟨r, reads⟩ := r
    obtain ⟨r', reads'⟩ := r'
    cases hr with
    | error => exact agree_pure rfl h'
    | ok hv =>
      cases hL.kinds hv with
      | object hslots =>
        refine (hL.evaluate h' hscope value).bind fun r r' a' b' hr h' => ?_
        obtain ⟨r, reads⟩ := r
        obtain ⟨r', reads'⟩ := r'
        cases hr with
        | error => exact agree_pure rfl h'
        | ok hv =>
          refine (h.assign h' (hslots hruns attr) hv).bind fun r _ a' b' hr h' => ?_
          subst hr
          cases r with
          | ok _ => exact agree_pure rfl h'
          | error e => exact agree_pure rfl h'
      | other hnone hnone' htype =>
        rename_i v v'
        have herror := congrArg (fun t => (Except.error (.type (.cannotAssign attr t)) :
          Except EvalError Unit)) htype.symm
        cases v with
        | object => cases hnone
        | _ =>
          cases v' with
          | object => cases hnone'
          | _ => exact agree_pure herror h'

end

theorem succ (hL : L.Lawful) (h : Agreeing L n) : Agreeing L (n + 1) where
  assign hnets hslot hv := h.assigns hL hnets hslot hv
  announce hnets hchange hhandlers := h.announces hL hnets hchange hhandlers
  react hnets hchange hhandlers := h.reacts hL hnets hchange hhandlers
  refresh hnets hlink := h.refreshes hL hnets hlink
  execute statements hruns hnets hscope := h.executes hnets statements hruns hscope
  executeOne statement hruns hnets hscope := h.executesOne hL hnets statement hruns hscope

end Agreeing

theorem Lawful.agreeing (hL : L.Lawful) (n : Nat) : Agreeing L n := by
  induction n with
  | zero => exact .zero
  | succ n ih => exact ih.succ hL

end Likeness

end ReactiveView
