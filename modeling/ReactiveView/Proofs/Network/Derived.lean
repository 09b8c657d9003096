import ReactiveView.Proofs.Expr.Numbering
import ReactiveView.Proofs.Network.Links
import ReactiveView.Proofs.Table.Ascending

/-!
This module contains attributes that binds keep equal to expressions, and when a network is settled:
all its binds are up to date except some that are still to be refreshed. A bind is up to date if it
observes all that its expression reads and its attribute has the value of the expression. That lasts
as long as what it reads, what observes it and the attribute itself stay.
-/

namespace ReactiveView

/-! ### Observers that assign nothing -/

/-- A statement that assigns nothing. -/
def Statement.Calm : Statement → Prop
  | .expr _ => True
  | .assign .. => False

/-- Code that assigns nothing, neither when it is tied nor later. -/
def Binding.Calm : Binding → Prop
  | .notify _ statements => ∀ s ∈ statements, s.Calm
  | _ => False

mutual

/-- A command that assigns nothing, and whose observers assign nothing. -/
def Command.Calm : Command → Prop
  | .set .. => False
  | .put .. => False
  | .observe _ _ _ actions => AllCalm actions
  | .exec source => ∀ statements, Statement.parseAll source = .ok statements →
      ∀ s ∈ statements, s.Calm
  | .connect kind code _ _ _ => ∀ binding, Binding.compile kind code = .ok binding → binding.Calm
  | _ => True

/-- Commands that assign nothing. -/
def AllCalm : List Command → Prop
  | [] => True
  | c :: rest => c.Calm ∧ AllCalm rest

end

theorem allCalm_iff {cs : List Command} : AllCalm cs ↔ ∀ c ∈ cs, c.Calm := by
  induction cs with
  | nil => simp [AllCalm]
  | cons c rest ih => simp [AllCalm, ih]

/-- A handler that assigns nothing but attributes of binds. -/
def Handler.Calm : Handler → Prop
  | .writeThrough .. => False
  | .writeBack .. => False
  | .host _ actions => ∀ c ∈ actions, c.Calm
  | _ => True

/-- The binds that a handler brings up to date. -/
def Handler.refreshes : Handler → List Nat
  | .refresh k => [k]
  | _ => []

/-! ### Attributes of binds -/

/--
An attribute that a bind keeps equal to an expression.
-/
structure Derived where
  /-- The expression. -/
  expr : Expr
  /-- The object that has the attribute. -/
  target : ObjectRef
  /-- The attribute. -/
  attr : String
  /-- The scope of the expression. -/
  scope : Scope

namespace Derived

/-- What the expression comes to now. -/
def value (b : Derived) (net : Network) : Except EvalError Value :=
  (net.outcome b.scope b.expr).1

/-- What the evaluation of the expression reads. -/
def reads (b : Derived) (net : Network) : List Dependency :=
  (net.outcome b.scope b.expr).2.reads

/-- The attribute can be assigned as long as its object is alive. -/
def Settable (b : Derived) (store : Store) : Prop :=
  store.shape? b.target.id ≠ some .frozen ∧ (store.shape? b.target.id = some .declared →
    store.isAlive b.target.id = true → store.has b.target b.attr = true)

/-- The bind observes all that its expression reads. -/
def Observed (b : Derived) (net : Network) (k : Nat) : Prop :=
  ∀ d ∈ b.reads net, ∃ o ∈ net.observers,
    o.object = d.object.id ∧ o.attr = d.attr ∧ o.handler = .refresh k

/-- The expression has a value, and so has the attribute. The value must equal itself, which it does
unless there is no number in it, and must not contain a method that the evaluation made, because
every evaluation makes another one. -/
def Consistent (b : Derived) (net : Network) : Prop :=
  ∃ v, b.value net = .ok v ∧ (v.Below net.nextFunction → v.equal v = true →
    net.store.isAlive b.target.id = true →
      ∃ w, net.store.get? b.target b.attr = some w ∧ w.equal v = true)

end Derived

namespace Network

/-- A live bind. -/
def Derives (net : Network) (k : Nat) (b : Derived) : Prop :=
  net.HasBind k b.expr b.target b.attr b.scope

/-- A live bind whose latest evaluation came to a value. -/
def Succeeded (net : Network) (k : Nat) (b : Derived) : Prop :=
  ∃ lk, net.link? k = some lk ∧ lk.body = .bind b.expr b.target b.attr b.scope
    ∧ lk.succeeded = true

/--
Binds have attributes of their own, their expressions look into objects by name only, nothing else
assigns attributes, and numbers are given once.
-/
structure Orderly (net : Network) : Prop where
  /-- Subscriptions have been numbered. -/
  numbered : net.Numbered
  /-- No observer but a bind assigns attributes. -/
  calm : ∀ o ∈ net.observers, o.handler.Calm
  /-- No notify assigns attributes. -/
  statements : ∀ k ss scope, net.HasNotify k ss scope → ∀ s ∈ ss, s.Calm
  /-- What observes for a bind is listed by this bind only. -/
  listed : ∀ o ∈ net.observers, ∀ k, o.handler = .refresh k →
    ∀ j lk, net.link? j = some lk → o.id ∈ lk.subscriptions → j = k
  /-- What observes for a bind is not of the host. -/
  hidden : ∀ o ∈ net.observers, ∀ k, o.handler = .refresh k →
    ∀ name w, net.desk.watches.get? name = some w → w.observer ≠ o.id
  /-- The subscriptions that a binding lists have been numbered. -/
  subscribed : ∀ j lk, net.link? j = some lk → ∀ i ∈ lk.subscriptions, i < net.nextObserver
  /-- The observers of the host have been numbered. -/
  watched : ∀ name w, net.desk.watches.get? name = some w → w.observer < net.nextObserver
  /-- Expressions have no subscripts, membership tests and calls. -/
  plain : ∀ k b, net.Derives k b → b.expr.isPlain = true
  /-- No two binds have the same attribute. -/
  distinct : ∀ j k b c, net.Derives j b → net.Derives k c → b.target.id = c.target.id →
    b.attr = c.attr → j = k
  /-- The attributes of binds can be assigned. -/
  settable : ∀ k b, net.Derives k b → b.Settable net.store
  /-- Methods in scopes have been numbered. -/
  scopes : ∀ k b, net.Derives k b → ∀ name v, b.scope.lookup? name = some v →
    v.Below net.nextFunction
  /-- Methods in attributes have been numbered. -/
  values : ∀ o name v, net.store.get? o name = some v → v.Below net.nextFunction

/--
A bind that can be added to a network.
-/
structure Fresh (net : Network) (b : Derived) : Prop where
  plain : b.expr.isPlain = true
  settable : b.Settable net.store
  scope : ∀ name v, b.scope.lookup? name = some v → v.Below net.nextFunction
  /-- No bind has the attribute yet. -/
  free : ∀ k c, net.Derives k c → ¬(c.target.id = b.target.id ∧ c.attr = b.attr)

/-- If the latest evaluation of a bind came to a value, it observes what its expression reads, and
its attribute has the value. -/
def UpToDate (net : Network) (k : Nat) : Prop :=
  ∀ b, net.Succeeded k b → b.Observed net k ∧ b.Consistent net

/--
All binds are up to date except some that are still to be refreshed.
-/
structure Settled (pending : List Nat) (net : Network) : Prop extends net.Orderly where
  upToDate : ∀ k ∉ pending, net.UpToDate k

variable {net net' : Network} {k : Nat} {b : Derived} {P Q : List Nat}

theorem Succeeded.derives (h : net.Succeeded k b) : net.Derives k b := by
  obtain ⟨lk, hlk, hbody, -⟩ := h
  exact ⟨lk, hlk, hbody⟩

theorem Derives.unique {b' : Derived} (h : net.Derives k b) (h' : net.Derives k b') : b = b' := by
  obtain ⟨lk, hlk, hbody⟩ := h
  obtain ⟨lk', hlk', hbody'⟩ := h'
  cases hlk.symm.trans hlk'
  obtain ⟨expr, target, attr, scope⟩ := b
  obtain ⟨expr', target', attr', scope'⟩ := b'
  cases hbody.symm.trans hbody'
  rfl

/-! ### What an evaluation depends on -/

theorem reads_subset_holds_scope {lk : Link} {name : String} {v : Value} {o : ObjectRef}
    {expr : Expr} {target : ObjectRef} {attr : String} {scope : Scope}
    (hlk : net.link? k = some lk) (hbody : lk.body = .bind expr target attr scope)
    (hv : scope.lookup? name = some v) (ho : o ∈ v.references) : net.holds o.id = true := by
  obtain ⟨layer, hlayer, hget⟩ := List.exists_of_findSome?_eq_some hv
  have hmem : o ∈ lk.references := by
    unfold Link.references Scope.references
    rw [hbody]
    refine List.mem_flatMap.2 ⟨layer, hlayer, List.mem_flatMap.2 ⟨v, ?_, ho⟩⟩
    exact List.mem_map.2 ⟨_, Table.mem_of_get? hget, rfl⟩
  obtain ⟨hlt, hslot⟩ := Array.getElem?_eq_some_iff.1 (Option.join_eq_some_iff.1 hlk)
  have hany : (net.links.any fun slot => slot.any fun link =>
      link.references.any (·.id == o.id)) = true := by
    refine Array.any_eq_true.2 ⟨k, hlt, ?_⟩
    rw [hslot, Option.any_some]
    exact List.any_eq_true.2 ⟨o, hmem, beq_self_eq_true _⟩
  unfold holds
  rw [hany, Bool.or_true]

theorem holds_of_get? {o o' : ObjectRef} {name : String} {v : Value}
    (hv : net.store.get? o name = some v) (ho : o' ∈ v.references) : net.holds o'.id = true := by
  have hany : (net.store.objects.any fun obj => obj.attrs.values.any fun v =>
      v.references.any (·.id == o'.id)) = true := by
    unfold Store.get? Store.attrs at hv
    rcases hobj : net.store.objects[o.id]? with _ | obj
    · rw [hobj] at hv
      cases hv
    · rw [hobj] at hv
      obtain ⟨hlt, hslot⟩ := Array.getElem?_eq_some_iff.1 hobj
      refine Array.any_eq_true.2 ⟨o.id, hlt, ?_⟩
      rw [hslot]
      refine List.any_eq_true.2 ⟨v, List.mem_map.2 ⟨_, Table.mem_of_get? hv, rfl⟩, ?_⟩
      exact List.any_eq_true.2 ⟨o', ho, beq_self_eq_true _⟩
  unfold holds
  rw [hany]
  simp

/-- What the evaluation of a bind meets is held, and its methods have been numbered. -/
theorem Orderly.yields (h : net.Orderly) (hb : net.Derives k b) :
    Eval.Yields (fun o => net.holds o.id = true) net.nextFunction
      (fun n v => v.From (fun o => net.holds o.id = true) n) (b.expr.eval net.store b.scope) := by
  obtain ⟨lk, hlk, hbody⟩ := id hb
  exact b.expr.yields_eval (h.plain k b hb)
    (fun name v hv => ⟨fun o ho => reads_subset_holds_scope hlk hbody hv ho,
      h.scopes k b hb name v hv⟩)
    fun o name v hv => ⟨fun o' ho' => holds_of_get? hv ho', h.values o name v hv⟩

/-- What a bind reads is not freed. -/
theorem Orderly.holds_of_mem_reads (h : net.Orderly) (hb : net.Derives k b) {d : Dependency}
    (hd : d ∈ b.reads net) : net.holds d.object.id = true :=
  (h.yields hb { fresh := net.nextFunction } (Nat.le_refl _) nofun).2.1 d hd

theorem Orderly.below_value (h : net.Orderly) (hb : net.Derives k b) {v : Value}
    (hv : b.value net = .ok v) : v.Below (net.evaluated b.scope b.expr).nextFunction :=
  ((h.yields hb { fresh := net.nextFunction } (Nat.le_refl _) nofun).2.2 v hv).2

end Network

namespace Derived

open Network

variable {net net' : Network} {k : Nat} {b : Derived} {v : Value}

/-- Where what was read is the same, evaluation is, up to the numbers of new methods. -/
theorem outcome_eq_of_agree (h : net.Orderly) (hb : net.Derives k b)
    (hnext : net.nextFunction ≤ net'.nextFunction)
    (hreads : net.store.AgreeOn net'.store (b.reads net)) :
    b.reads net' = b.reads net ∧ b.value net' = (b.value net).map
      (Value.rename (Value.shift net.nextFunction (net'.nextFunction - net.nextFunction))) := by
  obtain ⟨gap, hgap⟩ := Nat.le.dest hnext
  have hshifts : Eval.Shifts net.nextFunction gap _ (b.expr.eval net.store b.scope) _ :=
    b.expr.shifts_eval (h.scopes k b hb) h.values (h.plain k b hb)
  have hshift := (hshifts { fresh := net.nextFunction } (Nat.le_refl _)).2
  change b.expr.run net.store b.scope (net.nextFunction + gap) = _ at hshift
  have hsame : net'.outcome b.scope b.expr
      = b.expr.run net.store b.scope (net.nextFunction + gap) := by
    unfold outcome
    rw [← hgap]
    refine Expr.run_congr_of_isPlain (h.plain k b hb) ?_
    rw [hshift]
    exact hreads
  unfold reads value
  rw [hsame, hshift, ← hgap, Nat.add_sub_cancel_left]
  exact ⟨rfl, rfl⟩

/-- A value that is the same from one evaluation to the next if it contains no new method. -/
theorem value_eq_of_agree (h : net.Orderly) (hb : net.Derives k b)
    (hnext : net.nextFunction ≤ net'.nextFunction)
    (hreads : net.store.AgreeOn net'.store (b.reads net)) (hv : b.value net = .ok v) :
    ∃ w, b.value net' = .ok w ∧ (w.Below net'.nextFunction → w = v ∧ v.Below net.nextFunction) := by
  refine ⟨_, ((outcome_eq_of_agree h hb hnext hreads).2.trans (congrArg _ hv)), fun hbelow => ?_⟩
  have hold : v.Below net.nextFunction := by
    obtain ⟨gap, hgap⟩ := Nat.le.dest hnext
    rw [← hgap, Nat.add_sub_cancel_left] at hbelow
    exact hbelow.of_rename_shift
  exact ⟨hold.rename_shift _, hold⟩

theorem Observed.of_agree (hobserved : b.Observed net k) (h : net.Orderly) (hb : net.Derives k b)
    (hnext : net.nextFunction ≤ net'.nextFunction)
    (hreads : net.store.AgreeOn net'.store (b.reads net))
    (hobservers : ∀ d ∈ b.reads net, ∀ o ∈ net.observers, o.object = d.object.id →
      o.handler = .refresh k → o ∈ net'.observers) : b.Observed net' k := by
  intro d hd
  rw [(outcome_eq_of_agree h hb hnext hreads).1] at hd
  obtain ⟨o, ho, hobject, hattr, hhandler⟩ := hobserved d hd
  exact ⟨o, hobservers d hd o ho hobject hhandler, hobject, hattr, hhandler⟩

theorem Consistent.of_agree (hconsistent : b.Consistent net) (h : net.Orderly)
    (hb : net.Derives k b) (hnext : net.nextFunction ≤ net'.nextFunction)
    (hreads : net.store.AgreeOn net'.store (b.reads net))
    (htarget : net'.store.isAlive b.target.id = true → net.store.isAlive b.target.id = true ∧
      net'.store.get? b.target b.attr = net.store.get? b.target b.attr) : b.Consistent net' := by
  obtain ⟨v, hv, hshown⟩ := hconsistent
  obtain ⟨w, hw, hsame⟩ := value_eq_of_agree h hb hnext hreads hv
  refine ⟨w, hw, fun hbelow hself halive => ?_⟩
  obtain ⟨rfl, hold⟩ := hsame hbelow
  obtain ⟨halive', hget⟩ := htarget halive
  rw [hget]
  exact hshown hold hself halive'

end Derived

end ReactiveView
