import ReactiveView.Proofs.Network.Pending

/-!
This module contains that binds are consistent after every change, and that every network in which
binds were tied to attributes of their own got there consistently.
-/

namespace ReactiveView

open Network

variable {net net' : Network} {k n : Nat} {b : Derived} {P : List Nat} {o : ObjectRef}
  {attr code : String} {v : Value}

/-! ### What a host does to a settled network -/

theorem Network.Settled.assign {r : Except EvalError Bool} (h : Settled P net)
    (hv : v.Below net.nextFunction)
    (hslot : ∀ k b, net.Derives k b → ¬(b.target.id = o.id ∧ b.attr = attr))
    (hrun : ReactiveView.assign n o attr v net = some (r, net')) : Settled P net' := by
  refine (mends n).assign ⟨fun store old hassign => ?_, fun _ => h⟩ hrun
  obtain ⟨rfl, -⟩ := Store.assign_changed hassign
  exact h.put o attr hv fun k _ => hslot k

theorem Network.Settled.connect {r : Except EvalError (Option Nat)} (h : Settled P net)
    (hb : net.Fresh b)
    (hrun : ReactiveView.connect n (.bind code b.expr) b.target b.attr b.scope net
      = some (r, net')) : Settled P net' := by
  cases n with
  | zero => cases hrun
  | succ n =>
    cases connect_cases hrun with
    | noBind hrefresh => exact ((mends n).refresh (h.bound hb) hrefresh).leaveLink _
    | bind hrefresh => exact (((mends n).refresh (h.bound hb) hrefresh).ownLink _).leaveLink _

/-- Binds are tied to attributes of their own, other attributes are assigned, and the host asks for
what assigns nothing. -/
inductive Network.Evolves (net : Network) : Network → Prop
  | refl : Evolves net net
  | connected {net₁ net₂ : Network} {code : String} {b : Derived}
      {r : Except EvalError (Option Nat)} (h : Evolves net net₁) (hb : net₁.Fresh b)
      (hrun : net₁.connect? (.bind code b.expr) b.target b.attr b.scope = some (r, net₂)) :
      Evolves net net₂
  | assigned {net₁ net₂ : Network} {o : ObjectRef} {attr : String} {v : Value}
      {r : Except EvalError Bool} (h : Evolves net net₁) (hv : v.Below net₁.nextFunction)
      (hslot : ∀ k b, net₁.Derives k b → ¬(b.target.id = o.id ∧ b.attr = attr))
      (hrun : net₁.set? o attr v = some (r, net₂)) : Evolves net net₂
  | served {net₁ net₂ : Network} {command : Command} {outcome : Outcome} (h : Evolves net net₁)
      (hcalm : command.Calm)
      (hrun : net₁.run (fun n => perform n none command) = some (outcome, net₂)) :
      Evolves net net₂

theorem Network.Evolves.settled (h : net.Evolves net') (hnet : Settled [] net) :
    Settled [] net' := by
  induction h with
  | refl => exact hnet
  | connected _ hb hrun ih => exact ih.connect hb hrun
  | assigned _ hv hslot hrun ih => exact ih.assign hv hslot hrun
  | served _ hcalm hrun ih => exact (mends nestingLimit).perform hcalm ih hrun

/-- In a network that started without binds all of them are consistent. -/
theorem Network.Evolves.consistent (h : net.Evolves net') (horderly : net.Orderly)
    (hnone : ∀ k b, ¬net.Derives k b) (hb : net'.Succeeded k b) :
    b.Observed net' k ∧ b.Consistent net' :=
  (h.settled ⟨horderly, fun k _ b hb => absurd hb.derives (hnone k b)⟩).upToDate k
    List.not_mem_nil b hb

/-- Binds are consistent after every change: whatever they read of each other, each one whose latest
evaluation came to a value has it in its attribute, if all observed what they read. -/
theorem Network.consistent_of_set {r : Except EvalError Bool} (horderly : net.Orderly)
    (hbefore : ∀ k b, net.Succeeded k b → b.Observed net k ∧ b.Consistent net)
    (hv : v.Below net.nextFunction)
    (hslot : ∀ k b, net.Derives k b → ¬(b.target.id = o.id ∧ b.attr = attr))
    (hrun : net.set? o attr v = some (r, net')) :
    net'.Orderly ∧ ∀ k b, net'.Succeeded k b → b.Observed net' k ∧ b.Consistent net' := by
  have hnet : Settled [] net := ⟨horderly, fun k _ => hbefore k⟩
  have hnet' := hnet.assign hv hslot hrun
  exact ⟨hnet'.toOrderly, fun k => hnet'.upToDate k List.not_mem_nil⟩

/-! ### A page with two objects -/

/-- An object with an amount and a flag, and an object for binds, each with what it observes. -/
def page (flag : Bool) (field : List (String × Value)) (observers : List Observer)
    (binds : List (Derived × List Nat)) : Network where
  store := { objects := #[
    ⟨"Model", .open, Table.ofList [("amount", .int 1), ("flag", .bool flag)], true⟩,
    ⟨"Field", .open, Table.ofList field, true⟩] }
  observers := observers
  links := (binds.map fun (b, subscriptions) => some
    { body := .bind b.expr b.target b.attr b.scope, subscriptions, owned := true,
      succeeded := true, reads := (observers.filter fun o => subscriptions.contains o.id).map fun o =>
        ⟨⟨o.object, if o.object = 0 then "Model" else "Field"⟩, o.attr⟩ }).toArray
  nextObserver := observers.length
  desk := { objects := Table.ofList [("field", ⟨1, "Field"⟩), ("model", ⟨0, "Model"⟩)] }

/-- A bind of an attribute of the second object. -/
def pageBind (attr : String) (e : Expr) : Derived where
  expr := e
  target := ⟨1, "Field"⟩
  attr := attr
  scope := ⟨[Table.ofList [("field", .object ⟨1, "Field"⟩), ("model", .object ⟨0, "Model"⟩)]]⟩

/-- An attribute of the first object. -/
def ofModel (attr : String) : Expr := .attr (.name "model") attr

/-- The amount while the flag is set, else what the other attribute has. -/
def amountOrCopy : Derived :=
  pageBind "shown" (.ite (ofModel "flag") (ofModel "amount") (.attr (.name "field") "copy"))

/-- What the other attribute shows. -/
def copyOfShown : Derived := pageBind "copy" (.attr (.name "field") "shown")

/-- A method while the flag is set, else a number. -/
def methodOrOne : Derived :=
  pageBind "shown"
    (.ite (ofModel "flag") (.attr (.literal (.str "a")) "upper") (.literal (.int 1)))

/-- The amount while the flag is set, else a number. -/
def amountOrOne : Derived :=
  pageBind "shown" (.ite (ofModel "flag") (ofModel "amount") (.literal (.int 1)))

section

variable {flag : Bool} {field : List (String × Value)} {observers : List Observer}
  {binds : List (Derived × List Nat)}

theorem page_derives (h : (page flag field observers binds).Derives k b) :
    ∃ subscriptions, (b, subscriptions) ∈ binds := by
  obtain ⟨lk, hlk, hbody⟩ := h
  obtain ⟨hlt, hslot⟩ := Array.getElem?_eq_some_iff.1 (Option.join_eq_some_iff.1 hlk)
  have hlink : some lk ∈ (page flag field observers binds).links :=
    hslot ▸ Array.getElem_mem hlt
  have hmem : some lk ∈ binds.map _ := List.mem_toArray.1 hlink
  obtain ⟨⟨c, subscriptions⟩, hc, heq⟩ := List.mem_map.1 hmem
  cases heq
  obtain ⟨expr, target, attr, scope⟩ := b
  obtain ⟨expr', target', attr', scope'⟩ := c
  cases hbody
  exact ⟨subscriptions, hc⟩

theorem page_orderly : (page flag [] [] []).Orderly := by
  have hlink (k : Nat) : (page flag [] [] []).link? k = none := rfl
  have hderives (k : Nat) (b : Derived) : ¬(page flag [] [] []).Derives k b := by
    rintro ⟨lk, hlk, -⟩
    cases (hlink k).symm.trans hlk
  refine ⟨nofun, nofun, ?_, nofun, nofun, ?_, nofun, fun k b hb => absurd hb (hderives k b),
    fun j k b c hb => absurd hb (hderives j b), fun k b hb => absurd hb (hderives k b),
    fun k b hb => absurd hb (hderives k b), fun o name v hv => ?_⟩
  · rintro k ss scope ⟨lk, hlk, -⟩
    cases (hlink k).symm.trans hlk
  · intro j lk hlk
    cases (hlink j).symm.trans hlk
  · unfold Store.get? Store.attrs at hv
    rcases hobj : (page flag [] [] []).store.objects[o.id]? with _ | obj
    · rw [hobj] at hv
      cases hv
    · simp only [hobj] at hv
      have hentry := Table.mem_of_get? hv
      rcases List.mem_of_getElem? (Array.getElem?_toList ▸ hobj) with _ | ⟨_, _ | ⟨_, ⟨⟩⟩⟩
      · rcases hentry with _ | ⟨_, _ | ⟨_, ⟨⟩⟩⟩
        · exact ((Value.isBare_int 1).from (p := fun _ => True)).2
        · exact ((Value.isBare_bool flag).from (p := fun _ => True)).2
      · cases hentry

theorem page_fresh {e : Expr} (he : e.isPlain = true)
    (hfree : ∀ p ∈ binds, p.1.attr ≠ attr) :
    (page flag field observers binds).Fresh (pageBind attr e) where
  plain := he
  settable := by
    have hshape : (page flag field observers binds).store.shape? 1 = some .open := rfl
    refine ⟨fun h => ?_, fun h => ?_⟩ <;> cases hshape.symm.trans h
  scope name v hv := by
    obtain ⟨layer, hlayer, hget⟩ := List.exists_of_findSome?_eq_some hv
    obtain rfl := List.mem_singleton.1 hlayer
    have hmethods : v.methods = [] := by
      rcases Table.mem_of_get? hget with _ | ⟨_, _ | ⟨_, ⟨⟩⟩⟩ <;> simp only [Value.methods]
    intro i hi
    rw [hmethods] at hi
    cases hi
  free k b hb h := by
    obtain ⟨subscriptions, hmem⟩ := page_derives hb
    exact hfree _ hmem h.2

end

/-- A page with two binds that read each other. -/
def crossedPage : Network :=
  page true [("copy", .int 1), ("shown", .int 1)]
    [⟨0, 0, "flag", .refresh 0⟩, ⟨1, 0, "amount", .refresh 0⟩, ⟨2, 1, "shown", .refresh 1⟩]
    [(amountOrCopy, [0, 1]), (copyOfShown, [2])]

theorem crossedPage_settled : Settled [] crossedPage := by
  have hpage : Settled [] (page true [] [] []) :=
    ⟨page_orderly, fun k _ b hb => nomatch (page_derives hb.derives).choose_spec⟩
  have hfirst : (page true [] [] []).connect? (.bind "" amountOrCopy.expr) amountOrCopy.target
      amountOrCopy.attr amountOrCopy.scope = some (.ok (some 0), page true [("shown", .int 1)]
        [⟨0, 0, "flag", .refresh 0⟩, ⟨1, 0, "amount", .refresh 0⟩] [(amountOrCopy, [0, 1])]) := rfl
  have hone := hpage.connect (page_fresh rfl nofun) hfirst
  have hsecond : (page true [("shown", .int 1)]
      [⟨0, 0, "flag", .refresh 0⟩, ⟨1, 0, "amount", .refresh 0⟩] [(amountOrCopy, [0, 1])]).connect?
        (.bind "" copyOfShown.expr) copyOfShown.target copyOfShown.attr copyOfShown.scope
      = some (.ok (some 1), crossedPage) := rfl
  refine hone.connect (page_fresh rfl ?_) hsecond
  simp [amountOrCopy, pageBind]

theorem Network.consistent_of_set_crossedPage : ∃ net',
    crossedPage.set? ⟨0, "Model"⟩ "amount" (.int 5) = some (.ok true, net')
      ∧ net'.store.get? ⟨1, "Field"⟩ "copy" = some (.int 5)
      ∧ net'.Orderly ∧ ∀ k b, net'.Succeeded k b → b.Observed net' k ∧ b.Consistent net' := by
  have hrun : (crossedPage.set? ⟨0, "Model"⟩ "amount" (.int 5)).map
      (fun p => (p.1, p.2.store.get? ⟨1, "Field"⟩ "copy")) = some (.ok true, some (.int 5)) := by
    cbv
  obtain ⟨⟨r, net'⟩, hset, hp⟩ := Option.map_eq_some_iff.1 hrun
  simp only [Prod.mk.injEq] at hp
  obtain ⟨rfl, hcopy⟩ := hp
  refine ⟨net', hset, hcopy, consistent_of_set crossedPage_settled.toOrderly
    (fun k => crossedPage_settled.upToDate k List.not_mem_nil)
    ((Value.isBare_int 5).from (p := fun _ => True)).2 (fun k b hb h => ?_) hset⟩
  obtain ⟨subscriptions, hmem⟩ := page_derives hb
  rcases hmem with _ | ⟨_, _ | ⟨_, ⟨⟩⟩⟩ <;> cases h.1

/-- The attribute has the value of the expression, if that equals itself. -/
def Derived.Shown (b : Derived) (net : Network) : Prop :=
  ∃ v, b.value net = .ok v ∧ (v.equal v = true → net.store.isAlive b.target.id = true →
    ∃ w, net.store.get? b.target b.attr = some w ∧ w.equal v = true)

/-- A page with one bind, which observes the flag. -/
def flagPage (flag : Bool) (b : Derived) : Network :=
  page flag [("shown", .int 1)] [⟨0, 0, "flag", .refresh 0⟩] [(b, [0])]

theorem flagPage_settled {e : Expr} (he : e.isPlain = true)
    (hrun : (page false [] [] []).connect? (.bind "" e) ⟨1, "Field"⟩ "shown" (pageBind "shown" e).scope
      = some (.ok (some 0), flagPage false (pageBind "shown" e))) :
    Settled [] (flagPage false (pageBind "shown" e)) := by
  have hpage : Settled [] (page false [] [] []) :=
    ⟨page_orderly, fun k _ b hb => nomatch (page_derives hb.derives).choose_spec⟩
  exact hpage.connect (b := pageBind "shown" e) (page_fresh he nofun) hrun

theorem flagPage_derives {flag : Bool} {c : Derived} (h : (flagPage flag c).Derives k b) :
    b = c := by
  obtain ⟨subscriptions, _ | ⟨_, ⟨⟩⟩⟩ := page_derives h
  rfl

/-- What a bind on the page shows once an attribute of the model has been assigned. -/
theorem flagPage_assigned (c : Derived) (net : Network) (attr : String) (v shown value : Value)
    (hrun : (net.set? ⟨0, "Model"⟩ attr v).map (fun p =>
        (p.1, (p.2.link? 0).map fun l => (l.body, l.succeeded), p.2.store.isAlive c.target.id,
          p.2.store.get? c.target c.attr, c.value p.2))
      = some (.ok true, some (.bind c.expr c.target c.attr c.scope, true), true, some shown,
          .ok value)) :
    ∃ net', net.set? ⟨0, "Model"⟩ attr v = some (.ok true, net') ∧ net'.Succeeded 0 c
      ∧ net'.store.isAlive c.target.id = true ∧ net'.store.get? c.target c.attr = some shown
      ∧ c.value net' = .ok value := by
  obtain ⟨⟨r, net'⟩, hset, hp⟩ := Option.map_eq_some_iff.1 hrun
  simp only [Prod.mk.injEq] at hp
  obtain ⟨rfl, hlink, halive, hshown, hvalue⟩ := hp
  obtain ⟨lk, hlk, hp⟩ := Option.map_eq_some_iff.1 hlink
  simp only [Prod.mk.injEq] at hp
  exact ⟨net', hset, ⟨lk, hlk, hp⟩, halive, hshown, hvalue⟩

/-- A value that contains a method made by its evaluation is not what the attribute has, and a bind
that does not observe what its expression reads by now is left behind. -/
theorem Network.not_consistent_of_set :
    (¬ ∀ (net net' : Network) (o : ObjectRef) (attr : String) (v : Value) (r : Except EvalError Bool),
      net.Orderly → (∀ k b, net.Succeeded k b → b.Observed net k ∧ b.Shown net) →
      v.Below net.nextFunction →
      (∀ k b, net.Derives k b → ¬(b.target.id = o.id ∧ b.attr = attr)) →
      net.set? o attr v = some (r, net') → ∀ k b, net'.Succeeded k b → b.Shown net') ∧
    ¬ ∀ (net net' : Network) (o : ObjectRef) (attr : String) (v : Value) (r : Except EvalError Bool),
      net.Orderly → (∀ k b, net.Succeeded k b → b.Consistent net) →
      v.Below net.nextFunction →
      (∀ k b, net.Derives k b → ¬(b.target.id = o.id ∧ b.attr = attr)) →
      net.set? o attr v = some (r, net') → ∀ k b, net'.Succeeded k b → b.Consistent net' := by
  constructor
  · intro h
    have hnet : Settled [] (flagPage false methodOrOne) := flagPage_settled rfl rfl
    obtain ⟨net', hset, hsucceeded, halive, hshown, hvalue⟩ := flagPage_assigned methodOrOne
      (flagPage false methodOrOne) "flag" (.bool true) (.function (.method .upper "a" 0))
      (.function (.method .upper "a" 1)) rfl
    have hbefore : ∀ k b, (flagPage false methodOrOne).Succeeded k b →
        b.Observed (flagPage false methodOrOne) k ∧ b.Shown (flagPage false methodOrOne) := by
      intro k b hb
      obtain rfl := flagPage_derives hb.derives
      exact ⟨(hnet.upToDate k List.not_mem_nil _ hb).1, .int 1, rfl, fun _ _ => ⟨.int 1, rfl, rfl⟩⟩
    obtain ⟨v, hv, hequal⟩ := h _ net' _ _ _ _ hnet.toOrderly hbefore
      ((Value.isBare_bool true).from (p := fun _ => True)).2
      (fun k b hb hslot => by cases flagPage_derives hb; cases hslot.1) hset 0 _ hsucceeded
    cases hvalue.symm.trans hv
    obtain ⟨w, hw, hdiffers⟩ := hequal rfl halive
    cases hshown.symm.trans hw
    cases hdiffers
  · intro h
    have hflagged : Settled [] (flagPage false amountOrOne) := flagPage_settled rfl rfl
    have hnet : (flagPage true amountOrOne).Orderly :=
      hflagged.toOrderly.put ⟨0, "Model"⟩ "flag" ((Value.isBare_bool true).from (p := fun _ => True)).2
    obtain ⟨net', hset, hsucceeded, halive, hshown, hvalue⟩ := flagPage_assigned amountOrOne
      (flagPage true amountOrOne) "amount" (.int 5) (.int 1) (.int 5) rfl
    have hbefore : ∀ k b, (flagPage true amountOrOne).Succeeded k b →
        b.Consistent (flagPage true amountOrOne) := by
      intro k b hb
      obtain rfl := flagPage_derives hb.derives
      exact ⟨.int 1, rfl, fun _ _ _ => ⟨.int 1, rfl, rfl⟩⟩
    obtain ⟨v, hv, hequal⟩ := h _ net' _ _ _ _ hnet hbefore
      ((Value.isBare_int 5).from (p := fun _ => True)).2
      (fun k b hb hslot => by cases flagPage_derives hb; cases hslot.1) hset 0 _ hsucceeded
    cases hvalue.symm.trans hv
    obtain ⟨w, hw, hdiffers⟩ := hequal ((Value.isBare_int 5).from (p := fun _ => True)).2 rfl halive
    cases hshown.symm.trans hw
    cases hdiffers

end ReactiveView
