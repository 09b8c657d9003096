import ReactiveView.Proofs.Component.Hosting
import ReactiveView.Proofs.View.Keeping

/-!
This module contains that a view leaves nothing behind: once the host holds none of its components,
all that was made for them is gone, and what there was before is as it would be without the view.
-/

namespace ReactiveView

open Network

/-- The components that a task is for. -/
def Task.components : Task → List Nat
  | .constraints c => [c]
  | .layout c => [c]
  | .sizeHint p c => [p, c]

namespace Scene

variable {α : Type} {s t u : Scene α} {c k n : Nat} {H : Nat → Prop}

/-! ### Letting components go -/

theorem component?_release (s : Scene α) (c k : Nat) :
    (s.release c).component? k = if k = c then none else s.component? k := by
  unfold release
  split
  · next hnone =>
    split
    · next hk => rw [hk, hnone]
    · rfl
  · unfold component?
    dsimp only
    rw [Array.getElem?_modify]
    by_cases hk : k = c
    · subst hk
      rw [if_pos rfl, if_pos rfl]
      cases s.components[k]? <;> rfl
    · rw [if_neg (Ne.symm hk), if_neg hk]

theorem size_release (s : Scene α) (c : Nat) :
    (s.release c).components.size = s.components.size := by
  unfold release
  split
  · rfl
  · exact Array.size_modify

theorem kept?_release (s : Scene α) (c k : Nat) :
    (s.release c).kept? k = if k = c then none else s.kept? k := by
  unfold kept?
  rw [component?_release]
  split <;> rfl

/-- What a component kept it keeps no longer once it has gone. -/
theorem keeps_release (hhandles : (s.release c).network.desk.handles = s.network.desk.handles) :
    (s.release c).keeps = s.keeps.except (.component c) := by
  funext a k
  refine propext ?_
  unfold Keeping.except
  cases a with
  | host | handle => simp [hhandles]
  | component d => by_cases hd : d = c <;> simp [kept?_release, hd]

theorem stands_release (s : Scene α) (c : Nat) :
    (s.release c).stands H = (s.stands H).except (.component c) := by
  funext a k
  refine propext ?_
  unfold Keeping.except
  cases a with
  | host | handle => simp
  | component d => by_cases hd : d = c <;> simp [kept?_release, hd]

/-- A component that goes takes along what it kept, and nothing else. -/
theorem respects_release (hn : s.component? c ≠ none → n ≤ c) : s.Respects H n (s.release c) := by
  intro hs
  rcases hcomp : s.component? c with _ | comp
  · have hsame : s.release c = s := by
      unfold release
      rw [hcomp]
    have hrefl : s.Respects H n s := Std.Refl.refl s
    exact hsame.symm ▸ hrefl hs
  have hn : n ≤ c := hn (hcomp ▸ nofun)
  have hkept : s.kept? c = some (comp.links, comp.watchers) := congrArg (Option.map _) hcomp
  have hnetwork : (s.release c).network = comp.watchers.foldl Network.unsubscribe
      (comp.links.foldl Network.dropLink s.network) := by
    unfold release
    rw [hcomp]
  -- Nobody else keeps any of it, so to end these is to end what this component kept.
  have hlinks : s.keeps.without comp.links = s.keeps.except (.component c) :=
    Keeping.without_eq_except hs.keeper fun k => by simp [hkept]
  have hwatchers : (s.stands H).without comp.watchers = (s.stands H).except (.component c) :=
    Keeping.without_eq_except
      (fun a b i ha hb => Sum.inr.inj (hs.unique i (.inr a) (.inr b) ha hb)) fun i => by simp [hkept]
  obtain ⟨htidy, hlasts⟩ := hs.dropLinks comp.links
  have hfree (i : Nat) (hi : i ∈ comp.watchers) (k : Nat) :
      ¬(comp.links.foldl Network.dropLink s.network).Lists k i := fun hlists => by
    have hmine : s.stands H (.component c) i := ⟨_, hkept, hi⟩
    exact nomatch htidy.unique i (.inl k) (.inr (.component c)) hlists hmine
  obtain ⟨htidy', hlasts'⟩ := htidy.retire hfree
  rw [← hnetwork, hlinks, hwatchers] at htidy'
  rw [← hnetwork, hwatchers] at hlasts'
  refine ⟨?_, (hlasts.mono stands_below).trans (hlasts'.mono fun a i hi => ⟨?_, stands_below a i hi⟩),
    fun d hd => ?_, (size_release s c).ge⟩
  · unfold Tidy
    rwa [keeps_release (hlasts'.handles.trans hlasts.handles), stands_release]
  · rintro rfl
    exact absurd hi.1 (Nat.not_lt.2 hn)
  · rw [kept?_release, if_neg (hd.trans_le hn).ne]

/-! ### Sweeping -/

theorem component?_releases (cs : List Nat) (s : Scene α) (k : Nat) :
    (cs.foldl release s).component? k = if k ∈ cs then none else s.component? k := by
  induction cs generalizing s with
  | nil => rfl
  | cons c rest ih =>
    rw [List.foldl_cons, ih, component?_release]
    simp only [List.mem_cons]
    by_cases hk : k = c <;> simp [hk]

theorem respects_releases (cs : List Nat) (s : Scene α)
    (hcs : ∀ c ∈ cs, s.component? c ≠ none → n ≤ c) : s.Respects H n (cs.foldl release s) := by
  induction cs generalizing s with
  | nil => exact Std.Refl.refl s
  | cons c rest ih =>
    have hfirst : s.Respects H n (s.release c) := respects_release (hcs c (List.mem_cons_self ..))
    refine IsTrans.trans _ _ _ hfirst (ih _ fun d hd hne => ?_)
    rw [component?_release] at hne
    split at hne
    · exact absurd rfl hne
    · exact hcs d (List.mem_cons_of_mem _ hd) hne

/-- The components that are below no root. -/
def gone (s : Scene α) (roots : List Nat) : List Nat :=
  (List.range s.components.size).filter fun c => !(roots.flatMap s.subtree).contains c

theorem mem_gone {roots : List Nat} :
    c ∈ s.gone roots ↔ c < s.components.size ∧ c ∉ roots.flatMap s.subtree := by
  unfold gone
  rw [List.mem_filter, List.mem_range, Bool.not_eq_true', List.contains_eq_mem, decide_eq_false_iff_not]

/-- After a sweep just the components that are below a root are left. -/
theorem component?_sweep (s : Scene α) (roots kept : List Nat) (k : Nat) :
    (s.sweep roots kept).component? k
      = if k ∈ roots.flatMap s.subtree then s.component? k else none := by
  change ((s.gone roots).foldl release s).component? k = _
  rw [component?_releases]
  by_cases hk : k < s.components.size
  · by_cases hreached : k ∈ roots.flatMap s.subtree
    · rw [if_neg fun h => (mem_gone.1 h).2 hreached, if_pos hreached]
    · rw [if_pos (mem_gone.2 ⟨hk, hreached⟩), if_neg hreached]
  · rw [component?_eq_none (Nat.le_of_not_lt hk)]
    simp only [ite_self]

/-- A sweep that lets only components from a number on go leaves the others what they keep. -/
theorem respects_sweep {roots : List Nat} (kept : List Nat)
    (hroots : ∀ c < n, s.component? c ≠ none → c ∈ roots.flatMap s.subtree) :
    s.Respects H n (s.sweep roots kept) := by
  have hreleased : s.Respects H n ((s.gone roots).foldl release s) :=
    respects_releases _ s fun c hc hne => Nat.le_of_not_lt fun hlt =>
      (mem_gone.1 hc).2 (hroots c hlt hne)
  refine IsTrans.trans _ _ _ hreleased (respects_of_tidied rfl rfl fun ht => ?_)
  let owned : Network := { ((s.gone roots).foldl release s).network with
    owners := ((s.gone roots).foldl release s).ownedObjects ++ kept }
  have howned : Tidied _ _ _ [] owned := ht.same rfl (fun _ h => h) rfl rfl rfl rfl
  exact howned.bind Tidy.sweep

/-! ### What a host comes to -/

variable [Scalar α]

/-- The scenes that a prudent host comes to, from a network without observers and bindings: it gives
commands, builds views, uses them, and gives them up. -/
inductive Staged : Scene α → Prop
  | start {network : Network} {config : LayoutConfig} (hobservers : network.observers = [])
      (hlinks : network.links = #[]) (hhandles : network.desk.handles = Table.empty) :
      Staged { network, config }
  | served {s : Scene α} {command : Command} (h : Staged s) (hprudent : command.Prudent) :
      Staged { s with network := (s.network.command command).2 }.heedSignals
  | instantiated {s : Scene α} (h : Staged s) (compiled : CompiledDocument) (context : Namespace) :
      Staged ((instantiate compiled context).run.run s).2
  | made {s : Scene α} (h : Staged s) (widgetClass : WidgetClass) (identifier : Option String) :
      Staged (s.newComponent widgetClass identifier).2
  | attached {s : Scene α} (h : Staged s) (p c : Nat) : Staged (s.attach p c)
  | used {s t : Scene α} (h : Staged s) (hused : s.Used t) : Staged t
  | swept {s : Scene α} (h : Staged s) (roots kept : List Nat) : Staged (s.sweep roots kept)

omit [Scalar α] in
theorem tidy_start {network : Network} {config : LayoutConfig} (hobservers : network.observers = [])
    (hlinks : network.links = #[]) (hhandles : network.desk.handles = Table.empty) :
    ({ network, config } : Scene α).Tidy fun _ => False := by
  refine tidy_of_empty hobservers hlinks (fun a k => ?_) fun a i => ?_
  · cases a with
    | host => exact id
    | handle name =>
      rw [keeps_handle]
      change ¬network.desk.handles.get? name = _
      rw [hhandles, Table.get?_empty]
      nofun
    | component c => exact fun ⟨_, hkept, _⟩ => nomatch hkept
  · cases a with
    | host | handle => exact id
    | component c => exact fun ⟨_, hkept, _⟩ => nomatch hkept

theorem Staged.exists_tidy (h : Staged s) : ∃ H, s.Tidy H := by
  induction h with
  | start hobservers hlinks hhandles => exact ⟨_, tidy_start hobservers hlinks hhandles⟩
  | served _ hprudent ih =>
    obtain ⟨H, hs⟩ := ih
    obtain ⟨H, hs⟩ := hs.served hprudent
    exact ⟨H, ((aloof_heedSignals _).respects (n := 0) hs).tidy⟩
  | @instantiated s _ compiled context ih =>
    obtain ⟨H, hs⟩ := ih
    exact ⟨H, (respects_instantiate H compiled context s hs).tidy⟩
  | made _ widgetClass identifier ih =>
    obtain ⟨H, hs⟩ := ih
    exact ⟨H, ((extends_newComponent (Nat.zero_le _) widgetClass identifier).respects hs).tidy⟩
  | attached _ p c ih =>
    obtain ⟨H, hs⟩ := ih
    exact ⟨H, ((extends_attach p (Nat.zero_le c)).respects hs).tidy⟩
  | used _ hused ih =>
    obtain ⟨H, hs⟩ := ih
    exact ⟨H, (hused.respects (n := 0) hs).tidy⟩
  | swept _ roots kept ih =>
    obtain ⟨H, hs⟩ := ih
    exact ⟨H, (respects_sweep (n := 0) kept nofun hs).tidy⟩

/-! ### Nothing is left -/

/-- A task for a component that has gone does nothing. -/
theorem runTask_of_gone {task : Task} (hc : c ∈ task.components) (hgone : s.component? c = none) :
    (runTask task).run s = ((), s) := by
  cases task with
  | constraints d | layout d =>
    cases List.mem_singleton.1 hc
    simp only [runTask, StateT.run_bind, StateT.run_get, pure_bind, hgone]
    rfl
  | sizeHint p d =>
    have hidle : ((s.component? p).isSome && (s.component? d).isSome) = false := by
      rcases List.mem_pair.1 hc with rfl | rfl <;> simp [hgone]
    simp only [runTask, StateT.run_bind, StateT.run_get, pure_bind, hidle]
    rfl

omit [Scalar α] in
/-- Once no new component is left, the components keep what they kept before. -/
theorem Outlasts.kept_eq (h : s.Outlasts H s.components.size t)
    (hgone : ∀ c, s.components.size ≤ c → t.component? c = none) : t.kept? = s.kept? := by
  funext c
  rcases Nat.lt_or_ge c s.components.size with hc | hc
  · exact h.kept c hc
  · rw [kept?_eq_none_iff.2 (hgone c hc), kept?_eq_none_iff.2 (component?_eq_none hc)]

omit [Scalar α] in
theorem below_of_stands (a : Keeper) (i : Nat) (h : s.stands H a i) :
    (s.stands H).below s.components.size a i := by
  cases a with
  | host | handle => exact h
  | component c =>
    refine ⟨Nat.lt_of_not_le fun hc => ?_, h⟩
    obtain ⟨_, hkept, -⟩ := h
    rw [kept?_eq_none_iff.2 (component?_eq_none hc)] at hkept
    cases hkept

open Classical in
/-- A view that is given up leaves nothing behind, however much has happened since it was made, and
whether or not it could be made: no component, no binding, no observer, and no task that does
anything, also later on. What was there before has the observers that it had. Only binds that were
evaluated again in the meantime are subscribed to what they read then. -/
theorem leaves_nothing {compiled : CompiledDocument} {context : Namespace}
    {r : Except ViewError View} {s₁ s₂ : Scene α} {roots kept : List Nat} (hs : Staged s)
    (hrun : (instantiate compiled context).run.run s = (r, s₁)) (hused : s₁.Used s₂)
    (hheld : ∀ c, s₂.component? c ≠ none →
      (c ∈ roots.flatMap s₂.subtree ↔ c < s.components.size))
    (hlater : (s₂.sweep roots kept).Used t) :
    (∀ c, s.components.size ≤ c → t.component? c = none) ∧
      (∀ k, s.network.links.size ≤ k → t.network.link? k = none) ∧
      (∀ o ∈ t.network.observers, o ∈ s.network.observers ∨ s.network.Renewed t.network o) ∧
      (∀ id attr, s.network.store.isAlive id = true → t.network.store.isAlive id = true →
        (t.network.observersOf id attr).filter (fun o => ¬s.network.Renewed t.network o)
          = (s.network.observersOf id attr).filter fun o => ¬s.network.Renewed t.network o) ∧
      ∀ task : Task, ∀ c ∈ task.components, s.components.size ≤ c →
        (runTask task).run t = ((), t) := by
  obtain ⟨H, htidy⟩ := hs.exists_tidy
  have hbuilt := leads_of_run_eq hrun (respects_instantiate H compiled context s)
  have hswept : s₂.Respects H s.components.size (s₂.sweep roots kept) :=
    respects_sweep kept fun c hc hne => (hheld c hne).2 hc
  have hall : s.Outlasts H s.components.size t :=
    IsTrans.trans _ _ _ (IsTrans.trans _ _ _ hbuilt hused.respects)
      (IsTrans.trans _ _ _ hswept hlater.respects) htidy
  have hgone (c : Nat) (hc : s.components.size ≤ c) : t.component? c = none := by
    rw [← kept?_eq_none_iff, hlater.kept, kept?_eq_none_iff, component?_sweep]
    split
    · next hreached =>
      by_contra hne
      exact Nat.not_lt.2 hc ((hheld c hne).1 hreached)
    · rfl
  -- So the keepers are those of before, and each network has just what they keep.
  have hkept := hall.kept_eq hgone
  have hafter : t.network.Tidy s.keeps (s.stands H) [] := by
    rw [← keeps_congr hkept hall.lasts.handles, ← stands_congr hkept]
    exact hall.tidy
  have hlasts : s.network.Lasts (s.stands H) t.network := hall.lasts.mono below_of_stands
  refine ⟨hgone, fun k hk => (htidy.link?_eq_none_iff hafter k).2 ?_,
    fun o ho => hlasts.mem_or_renewed htidy hafter ho,
    fun id attr halive halive' => hlasts.observersOf_eq htidy hafter attr halive halive',
    fun task c hc hn => runTask_of_gone hc (hgone c hn)⟩
  by_contra hne
  obtain ⟨lk, hlk⟩ := Option.ne_none_iff_exists'.1 hne
  exact Nat.not_lt.2 hk (lt_size_of_link? hlk)

/-- A window whose title follows one of two attributes of a model, as a third one says. -/
def sampleSwitch : CompiledDocument where
  root :=
    { widgetClass := (WidgetClass.component "Window").declare [("title", .str "")]
      assignments := [("title", .bind "m.a if m.flag else m.b"
        (.ite (.attr (.name "m") "flag") (.attr (.name "m") "a") (.attr (.name "m") "b")))] }
  imports := Table.empty

/-- The model. -/
def sampleModel : ObjectRef := ⟨0, "Model"⟩

/-- A host with the model, and a network that nobody observes. -/
def sampleNetwork : Network where
  store := (({} : Store).create "Model" .open
    (Table.ofList [("flag", .bool true), ("a", .str "x"), ("b", .str "y")])).2
  desk := { objects := Table.ofList [("m", sampleModel)] }

/-- A scene with one more window on the model. -/
def windowed (s : Scene ℚ) : Scene ℚ :=
  ((instantiate sampleSwitch (Table.ofList [("m", .object sampleModel)])).run.run s).2

theorem exists_run_windowed (s : Scene ℚ) : ∃ r : Except ViewError View,
    (instantiate sampleSwitch (Table.ofList [("m", .object sampleModel)])).run.run s = (r, windowed s) :=
  ⟨_, rfl⟩

/-- A scene after the model has been switched. -/
def switched (s : Scene ℚ) : Scene ℚ :=
  match s.network.set? sampleModel "flag" (.bool false) with
  | some (_, network) => { s with network }.heedSignals
  | none => s

theorem used_switched (s : Scene ℚ) : s.Used (switched s) := by
  unfold switched
  split
  · next hrun => exact .changed .refl hrun
  · exact .refl

/-- A scene in which the host keeps the components that were there at first, and the model has been
switched while there was one more window. -/
def afterwards (s : Scene ℚ) : Scene ℚ :=
  (switched (windowed s)).sweep (List.range s.components.size) []

/-- One window on the model. -/
def oneView : Scene ℚ := windowed { network := sampleNetwork }

theorem staged_oneView : Staged oneView := (Staged.start rfl rfl rfl).instantiated ..

theorem held_oneView (c : Nat) :
    c ∈ (List.range oneView.components.size).flatMap (switched (windowed oneView)).subtree
      ↔ c < oneView.components.size := by
  have hroots : (List.range oneView.components.size).flatMap (switched (windowed oneView)).subtree
      = List.range oneView.components.size := by decide +kernel
  rw [hroots, List.mem_range]

theorem leaves_nothing_oneView :
    (afterwards oneView).component? 1 = none ∧ (afterwards oneView).network.link? 1 = none ∧
      (∀ o ∈ (afterwards oneView).network.observers, o ∈ oneView.network.observers ∨
        oneView.network.Renewed (afterwards oneView).network o) ∧
      (runTask (.layout 1)).run (afterwards oneView) = ((), afterwards oneView) := by
  have hsize : oneView.components.size = 1 := by decide +kernel
  have hlinks : oneView.network.links.size = 1 := by decide +kernel
  obtain ⟨r, hrun⟩ := exists_run_windowed oneView
  obtain ⟨hcomponents, hbindings, hobservers, -, htasks⟩ := leaves_nothing (t := afterwards oneView)
    staged_oneView hrun (used_switched _) (fun c _ => held_oneView c) .refl
  exact ⟨hcomponents 1 hsize.le, hbindings 1 hlinks.le, hobservers,
    htasks (.layout 1) 1 (List.mem_singleton_self 1) hsize.le⟩

/-- A host that observes the model, and observes more of it when that is switched. -/
def sampleObserver : Scene ℚ where
  network :=
    (sampleNetwork.command (.observe "m" "flag" "first" [.observe "m" "a" "second" []])).2

/-- The bind of a window that stays follows the other attribute now. And a host that itself observes
more as it is told of a change has more observers then, without any window that stays. -/
theorem not_same_observers :
    (¬ ∀ (s s₁ s₂ : Scene ℚ) (compiled : CompiledDocument) (context : Namespace)
      (r : Except ViewError View) (roots kept : List Nat), Staged s →
      (instantiate compiled context).run.run s = (r, s₁) → s₁.Used s₂ →
      (∀ c, s₂.component? c ≠ none → (c ∈ roots.flatMap s₂.subtree ↔ c < s.components.size)) →
      ∀ id attr, s.network.store.isAlive id = true →
        (s₂.sweep roots kept).network.store.isAlive id = true →
        (s₂.sweep roots kept).network.observersOf id attr = s.network.observersOf id attr) ∧
    sampleObserver.components = #[] ∧ sampleObserver.network.links = #[] ∧
      (sampleObserver.network.observersOf 0 "a").length = 0 ∧
      ((afterwards sampleObserver).network.observersOf 0 "a").length = 1 := by
  refine ⟨fun h => ?_, rfl, ?_, ?_, ?_⟩
  · obtain ⟨r, hrun⟩ := exists_run_windowed oneView
    have hsame := h oneView (windowed oneView) (switched (windowed oneView)) sampleSwitch _ r
      (List.range oneView.components.size) [] staged_oneView hrun (used_switched _)
      (fun c _ => held_oneView c) 0 "a" (by decide +kernel) (by decide +kernel)
    have hbefore : (oneView.network.observersOf 0 "a").length = 1 := by decide +kernel
    have hafter : ((afterwards oneView).network.observersOf 0 "a").length = 0 := by decide +kernel
    exact absurd ((congrArg List.length hsame).symm.trans hafter) (hbefore ▸ nofun)
  all_goals decide +kernel

end Scene

end ReactiveView
