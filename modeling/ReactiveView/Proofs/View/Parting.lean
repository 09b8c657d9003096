import ReactiveView.Proofs.Component.Absence
import ReactiveView.Proofs.View.Leaving
import ReactiveView.Proofs.View.Locality
import Mathlib

/-!
This module contains that views of one document do not interfere. Two parties build views of it on
contexts that have no object in common, use them, and have tasks run. Whatever has happened, a view comes
to what it would come to if there were nothing of the other party, and whatever one party does leaves all
that the other one has as it was.
-/

namespace ReactiveView

/-- The code and the classes of a document refer to nothing but what is shared. -/
structure CompiledDocument.Shares (v : CompiledDocument) (shared : Nat → Prop) : Prop where
  root : v.root.Shares shared
  imports : ∀ w ∈ v.imports.values, ∀ o ∈ w.references, shared o.id

namespace Realm

open Scene Network

variable {α : Type} {s t u : Scene α} {P P' Q : Realm}

section

variable [Scalar α]

/-- What a party does: it builds views, changes its objects, asks its components for something, and has
one of the tasks run that wait for them. -/
inductive Does (v : CompiledDocument) (P : Realm) (s : Scene α) : Scene α → Prop
  | instantiate {context : Namespace} (hcontext : ∀ w ∈ context.values, P.Knows w) :
    Does v P s ((Scene.instantiate v context).run.run s).2
  | set {o : ObjectRef} {attr : String} {w : Value} {r : Except EvalError Bool} {network : Network}
    (ho : P.Within o.id) (hw : P.Knows w) (hrun : s.network.set? o attr w = some (r, network)) :
    Does v P s { s with network }.heedSignals
  | emit {o : ObjectRef} {attr : String} {w : Value} {network : Network} (ho : P.objects o.id)
    (hw : P.Knows w) (hrun : s.network.emit? o attr w = some network) :
    Does v P s { s with network }.heedSignals
  | number (nextConstraint : Nat) : Does v P s { s with nextConstraint }
  | constrain {c : Nat} (hc : P.components c) (constraints : List (Constraint α)) :
    Does v P s (s.constrain c constraints)
  | resize {c : Nat} (hc : P.components c) (size : Size α) : Does v P s (s.resize c size)
  | attach {p c : Nat} (hp : P.components p) (hc : P.components c) : Does v P s (s.attach p c)
  | adopt {p c : Nat} (hp : P.components p) (hc : P.components c) :
    Does v P s ((Scene.adopt p c).run.run s).2
  | activate {c : Nat} (hc : P.components c) : Does v P s ((Scene.activate c).run.run s).2
  | needsLayout {c : Nat} (hc : P.components c) : Does v P s (s.invalidateLayout c)
  | needsConstraints {c : Nat} (hc : P.components c) : Does v P s (s.invalidateConstraints c)
  | hintUpdated {c : Nat} (hc : P.components c) : Does v P s (s.announceHint c)
  | handConstraints {c : Nat} (hc : P.components c) :
    Does v P s ((Scene.handConstraints c).run.run s).2
  | placeChildren {c : Nat} (hc : P.components c) : Does v P s ((Scene.placeChildren c).run.run s).2
  | renewHint {p c : Nat} (hp : P.components p) (hc : P.components c) :
    Does v P s ((Scene.renewHint p c).run.run s).2
  | minSize {c : Nat} (hc : P.components c) : Does v P s ((Scene.minSize c).run.run s).2
  | maxSize {c : Nat} (hc : P.components c) : Does v P s ((Scene.maxSize c).run.run s).2
  | sizeHint {c : Nat} (hc : P.components c) : Does v P s ((Scene.sizeHint c).run s).2
  | policy {c : Nat} (hc : P.components c) : Does v P s ((Scene.policyOf c).run s).2
  | work {task : Task} {before after : List Task} (htask : P.components task.subject)
    (hqueue : s.queue.pending = before ++ task :: after) :
    Does v P s ((runTask task).run { s with queue := ⟨before ++ after⟩ }).2

/-- What a party comes to have by what it does one thing after the other. -/
inductive Acts (v : CompiledDocument) (P : Realm) (s : Scene α) : Realm → Scene α → Prop
  | nothing : Acts v P s P s
  | next {P' : Realm} {t u : Scene α} (h : Acts v P s P' t) (hdoes : P'.Does v t u) :
    Acts v P s (P'.grown t u) u

end

/-! ### What is done stays within the realm -/

theorem Outlasts.mono {H : Nat → Prop} {m n : Nat} (hmn : m ≤ n) (h : s.Outlasts H n t) :
    s.Outlasts H m t where
  tidy := h.tidy
  lasts := h.lasts.mono fun a i hi => by
    cases a with
    | component c => exact ⟨hi.1.trans_le hmn, hi.2⟩
    | handle | host => exact hi
  kept c hc := h.kept c (hc.trans_le hmn)
  count := h.count

theorem aloof_dequeued (queue : Queue Task) : s.Aloof { s with queue } :=
  ⟨.refl s.network, rfl, rfl, rfl⟩

theorem Encloses.dequeue {R : Realm} {base : Scene α} (h : R.Encloses base s) {task : Task}
    {before after : List Task} (htask : R.minds task = true)
    (hqueue : s.queue.pending = before ++ task :: after) :
    R.Encloses base { s with queue := ⟨before ++ after⟩ } where
  network := h.network
  still := h.still
  components := h.components
  tasks := by
    refine Eq.trans ?_ h.tasks
    rw [hqueue, List.filter_append, List.filter_append, List.filter_cons_of_neg (by simp [htask])]
  owns := h.owns
  bears task' htask' := by
    refine h.bears task' ?_
    rw [hqueue]
    rcases List.mem_append.1 htask' with hfirst | hlast
    · exact List.mem_append_left _ hfirst
    · exact List.mem_append_right _ (List.mem_cons_of_mem _ hlast)

theorem knows_getD {R : Realm} {base net : Network} (h : R.Confines base net) {o : ObjectRef}
    (ho : R.Within o.id) (attr : String) : R.Knows ((net.store.get? o attr).getD .none) := by
  cases hget : net.store.get? o attr with
  | none => exact fun o ho => by simp [Value.references] at ho
  | some old => exact knows_of_get? h ho hget

theorem ampler_of_aloof (h : s.Aloof t) : Ampler s t where
  objects := by
    unfold objectCount
    rw [h.network.store]
  components := h.count.ge

variable [Scalar α] {v : CompiledDocument}

/-- Nothing is made after building. -/
theorem ampler_instantiate (v : CompiledDocument) (context : Namespace) {H : Nat → Prop}
    (hs : s.Tidy H) :
    Ampler (build v.root Table.empty s).2.2 ((Scene.instantiate v context).run.run s).2 := by
  change Leads (Scene.instantiate v context).run s
    fun _ t => Ampler (build v.root Table.empty s).2.2 t
  have hbuilt := extends_build H (n := s.components.size) v.root Table.empty s le_rfl
  obtain ⟨hroot, -, -, -⟩ := build_spec v.root Table.empty s
  have hattended {t : Scene α} (ht : (build v.root Table.empty s).2.2.Attends H s.components.size t) :
      Ampler (build v.root Table.empty s).2.2 t :=
    ⟨(ht.respects (hbuilt.respects hs).tidy).lasts.objects, ht.keeps.count.ge⟩
  refine leads_run_modifyGet_bind.2 ?_
  refine (attends_tieAll v.root _ _ (hbuilt.apart s.apart_size) hroot.ge).run_bind
    (fun _ t ht => ?_) fun _ t ht => hattended ht
  refine leads_run_bind.2 (leads_run_adapt.2 ?_)
  refine (wakes_activate _ t).mono fun r u hu => ?_
  have hactive := (hattended ht).trans (ampler_of_aloof hu.aloof)
  cases r with
  | error => exact hactive
  | ok _ =>
    refine leads_run_modify_bind.2 (leads_run_pure.2 ?_)
    exact hactive.trans (ampler_of_aloof (inner_note ..).aloof)

/-- Who builds a view has room for all that is made. -/
theorem room_instantiate (P : Realm) (v : CompiledDocument) (context : Namespace)
    (hs : s.Tidy fun _ => False) :
    (P.during s ((Scene.instantiate v context).run.run s).2).Room s
      (build v.root Table.empty s).2.2 :=
  have hample := ampler_instantiate v context hs
  ⟨fun _ hi hlt => .inr ⟨hi, hlt.trans_le hample.objects⟩,
    fun _ hc hlt => .inr ⟨hc, hlt.trans_le hample.components⟩⟩

/-- A party builds a view and comes to the same in two scenes that are the same to it. -/
theorem Scenes.instantiated {base base' s' : Scene α} {context : Namespace}
    (h : (P.during s ((Scene.instantiate v context).run.run s).2).Scenes base base' s s')
    (hs : s.Tidy fun _ => False) (hv : v.Shares P.shared)
    (hcontext : ∀ w ∈ context.values, P.Knows w) :
    (P.during s ((Scene.instantiate v context).run.run s).2).Accord base base'
        (Scene.instantiate v context).run (Scene.instantiate v context).run s s' ∧
      Leads (Scene.instantiate v context).run s fun r _ => ∀ view, r = .ok view →
        (P.during s ((Scene.instantiate v context).run.run s).2).Shows view :=
  h.instantiate hv.root (fun w hw o ho => .inr (hv.imports w hw o ho))
    (fun w hw => (part_during P s _).knows (hcontext w hw)) (room_instantiate P v context hs)

theorem aloof_handConstraints (c : Nat) : Through (@Aloof α) (Scene.handConstraints c).run := fun s =>
  leads_run_get_bind.2 (through_forM aloof_handConstraintsOne _ s)

theorem Does.outlasts (hdoes : P.Does v s t) (hs : s.Tidy fun _ => False) :
    s.Outlasts (fun _ => False) 0 t := by
  have haloof {u : Scene α} (h : s.Aloof u) : s.Outlasts (fun _ => False) 0 u := h.respects hs
  have hinner {u : Scene α} (h : s.Inner u) : s.Outlasts (fun _ => False) 0 u := haloof h.aloof
  cases hdoes with
  | instantiate => exact Outlasts.mono (Nat.zero_le _) (respects_instantiate _ v _ s hs)
  | set _ _ hrun => exact (Used.changed .refl hrun).respects hs
  | @emit o attr w network _ _ hrun =>
    obtain ⟨⟨u, net⟩, hannounced, rfl⟩ := Option.map_eq_some_iff.1 hrun
    have htold : s.Respects (fun _ => False) 0 { s with network := net } :=
      respects_of_tidied rfl rfl fun hs => (retains nestingLimit).announce hs hannounced
    exact IsTrans.trans _ _ _ htold (aloof_heedSignals _).respects hs
  | number => exact haloof ⟨.refl s.network, rfl, rfl, rfl⟩
  | constrain => exact haloof (aloof_constrain ..)
  | resize => exact haloof (aloof_resize ..)
  | attach => exact haloof (aloof_attach ..)
  | adopt => exact haloof (aloof_adopt _ _ s)
  | activate => exact haloof (Wakes.aloof (wakes_activate _ s))
  | needsLayout => exact haloof (aloof_invalidateLayout ..)
  | needsConstraints => exact haloof (aloof_invalidateConstraints ..)
  | hintUpdated => exact haloof (aloof_announceHint ..)
  | handConstraints =>
    exact haloof (aloof_handConstraints _ s)
  | placeChildren => exact haloof (aloof_placeChildren _ s)
  | renewHint => exact haloof (aloof_renewHint _ _ s)
  | minSize => exact hinner (inner_minSize _ s)
  | maxSize => exact hinner (inner_maxSize _ s)
  | sizeHint => exact hinner (inner_sizeHint _ s)
  | policy => exact hinner (inner_policyOf _ s)
  | work => exact haloof (IsTrans.trans _ _ _ (aloof_dequeued _) (aloof_runTask _ _))

theorem Does.encloses (hdoes : P.Does v s t) (h : P.Settled s) (hs : s.Tidy fun _ => False)
    (hv : v.Shares P.shared) : (P.during s t).Encloses s t := by
  have hmine : ∀ c, P.components c → (P.during s t).components c := (part_during P s t).components
  have hknows {w : Value} (hw : P.Knows w) : (P.during s t).Knows w := (part_during P s t).knows hw
  have hstart : (P.during s t).Scenes s s s s := (h.encloses t).scenes
  cases hdoes with
  | instantiate hcontext => exact (hstart.instantiated hs hv hcontext).1.2.left
  | @set o attr w r network ho hw hrun =>
    have hties := hstart.heed (x := fun net => net.set? o attr w)
      (hstart.nets.assigned nestingLimit ((part_during P s _).within ho) (hknows hw))
      fun _ _ _ => calms_assign
    rw [hrun] at hties
    cases hties with
    | some hpair => exact hpair.2.left
  | @emit o attr w network ho hw hrun =>
    -- To emit is to announce a change from the value that is stored.
    obtain ⟨⟨u, net⟩, hannounced, rfl⟩ := Option.map_eq_some_iff.1 hrun
    have hties := hstart.heed (x := fun net => announce nestingLimit
        ⟨o, attr, (s.network.store.get? o attr).getD .none, w⟩ net)
      (hstart.nets.announced nestingLimit (.inl ho)
        (knows_getD hstart.left.network (.inl (.inl ho)) attr) (hknows hw))
      fun _ _ _ => calms_announce
    have hannounced : announce nestingLimit ⟨o, attr, (s.network.store.get? o attr).getD .none, w⟩
        s.network = some (u, net) := hannounced
    rw [hannounced] at hties
    cases hties with
    | some hpair => exact hpair.2.left
  | number => exact { hstart.left with }
  | constrain hc cs => exact (hstart.constrain (hmine _ hc) cs).left
  | resize hc size => exact (hstart.resize (hmine _ hc) size).left
  | attach hp hc => exact (hstart.attach (hmine _ hp) (hmine _ hc)).left
  | adopt hp hc => exact (hstart.adopt (hmine _ hp) (hmine _ hc)).2.left
  | activate hc => exact (hstart.activate (hmine _ hc)).2.left
  | needsLayout hc => exact (hstart.invalidateLayout (hmine _ hc)).left
  | needsConstraints hc => exact (hstart.invalidateConstraints (hmine _ hc)).left
  | hintUpdated hc => exact (hstart.announceHint (hmine _ hc)).left
  | handConstraints hc => exact (hstart.handConstraints (hmine _ hc)).2.left
  | placeChildren hc => exact (hstart.placeChildren (hmine _ hc)).2.left
  | renewHint hp hc => exact (hstart.renewHint (hmine _ hp) (hmine _ hc)).2.left
  | minSize hc => exact (hstart.minSize (hmine _ hc)).2.left
  | maxSize hc => exact (hstart.maxSize (hmine _ hc)).2.left
  | sizeHint hc => exact (hstart.sizeHint (hmine _ hc)).2.left
  | policy hc => exact (hstart.policyOf (hmine _ hc)).2.left
  | @work task before after htask hqueue =>
    have hminds := minds_eq_true_iff.2 (hmine _ htask)
    have hbears := hstart.left.bears task (hqueue ▸ List.mem_append_right _ List.mem_cons_self) hminds
    exact ((hstart.left.dequeue hminds hqueue).scenes.runTask hbears).2.left

theorem Beside.does (h : P.Beside Q s) (hv : v.Shares P.shared) (hdoes : P.Does v s t) :
    (P.grown s t).Beside Q t ∧ Q.Matches s t :=
  h.step (hdoes.encloses h.left h.tidy hv) (hdoes.outlasts h.tidy)

theorem Beside.acts (h : P.Beside Q s) (hv : v.Shares P.shared) (hacts : P.Acts v s P' t) :
    P'.Beside Q t ∧ P'.shared = P.shared ∧ Q.Matches s t := by
  induction hacts with
  | nothing => exact ⟨h, rfl, .refl Q s⟩
  | @next P' t u _ hdoes ih =>
    obtain ⟨hbeside, hshared, hmatches⟩ := ih
    obtain ⟨hbeside', hmatches'⟩ := hbeside.does (hshared ▸ hv) hdoes
    exact ⟨hbeside', hshared, hmatches.trans hmatches'⟩

/-! ### Histories -/

/-- Objects that a party brings along. -/
def bringing (objects shared : Nat → Prop) : Realm where
  objects
  shared
  links _ := False
  observers _ := False
  components _ := False

/-- The party brings objects along that are there, and that refer to nothing but one another and what is
shared. -/
structure Brings (P : Realm) (net : Network) : Prop where
  there : ∀ i, P.objects i → i < net.store.objects.size
  apart : ∀ i, P.shared i → ¬P.objects i
  known : ∀ i obj, P.objects i → net.store.objects[i]? = some obj → ∀ w ∈ obj.attrs.values, P.Knows w

/-- What two parties come to with the views of a document, from a scene in which nothing has been made.
Each of them brings objects along, for the contexts of its views, and one acts after the other. Now and
then all tasks are run. -/
inductive Parting (v : CompiledDocument) : Realm → Realm → Scene α → Prop
  | start {own other shared : Nat → Prop} {network : Network} {config : LayoutConfig}
    (hobservers : network.observers = []) (hlinks : network.links = #[])
    (hhandles : network.desk.handles = Table.empty) (hstill : network.Still)
    (hshared : Common shared network) (hv : v.Shares shared)
    (hown : (bringing own shared).Brings network) (hother : (bringing other shared).Brings network)
    (hseparate : ∀ i, own i → ¬other i) :
    Parting v (bringing own shared) (bringing other shared) { network, config }
  | turn {P Q : Realm} {s : Scene α} (h : Parting v P Q s) : Parting v Q P s
  | does {P Q : Realm} {s t : Scene α} (h : Parting v P Q s) (hdoes : P.Does v s t) :
    Parting v (P.grown s t) Q t
  | drained {P Q : Realm} {s t : Scene α} {ran : Nat} (h : Parting v P Q s)
    (hrun : s.runPending = some (ran, t)) : Parting v P Q t

omit [Scalar α] in
theorem Brings.settled {objects shared : Nat → Prop} (h : (bringing objects shared).Brings s.network)
    (hobservers : s.network.observers = []) (hqueue : s.queue.pending = [])
    (hstill : s.network.Still) (hshared : Common shared s.network) :
    (bringing objects shared).Settled s where
  still := hstill
  common := hshared
  apart := h.apart
  objects := h.there
  links _ := False.elim
  observers _ := False.elim
  components _ := False.elim
  numbered := by simp [Network.Numbered, hobservers]
  seen := by simp [hobservers]
  due := by simp [hqueue]
  known := h.known
  ties _ _ := False.elim
  watched := by simp [hobservers]
  admitted := by simp [hobservers]
  owns _ _ := False.elim
  bears := by simp [hqueue]

omit [Scalar α] in
/-- Where nothing is made a party has what it had. -/
theorem grown_of_aloof (h : s.Aloof t) : P.grown s t = P := by
  have hsame (p : Nat → Prop) (n : Nat) : (fun k => p k ∨ n ≤ k ∧ k < n) = p :=
    funext fun k => propext (or_iff_left fun hk => Nat.not_lt.2 hk.1 hk.2)
  unfold Realm.grown objectCount
  rw [h.network.store, h.network.links, h.network.nextObserver, h.count, hsame, hsame, hsame, hsame]

theorem Beside.worked (h : P.Beside Q s) (hv : v.Shares P.shared) {task : Task} {queue : Queue Task}
    (htask : P.components task.subject) (hqueue : s.queue.pop? = some (task, queue)) :
    P.Beside Q ((runTask task).run { s with queue }).2 := by
  have hpending : s.queue.pending = [] ++ task :: queue.pending :=
    (Queue.pop?_eq_some_iff ..).1 hqueue
  have hdoes : P.Does v s ((runTask task).run { s with queue }).2 := .work htask hpending
  have haloof : s.Aloof ((runTask task).run { s with queue }).2 :=
    IsTrans.trans _ _ _ (aloof_dequeued queue) (aloof_runTask task _)
  have hsame : P.grown s ((runTask task).run { s with queue }).2 = P := grown_of_aloof haloof
  have hdone := (h.does hv hdoes).1
  rwa [hsame] at hdone

/-- Whoever the tasks that wait are for, after they have been run the parties have what they had. -/
theorem Beside.drained {limit ran m : Nat} (h : P.Beside Q s) (hv : v.Shares P.shared)
    (hrun : s.runUpTo limit ran = some (m, t)) : P.Beside Q t := by
  induction limit generalizing s ran with
  | zero =>
    unfold runUpTo at hrun
    split at hrun
    · cases hrun
      exact h
    · cases hrun
    · next hlimit => cases hlimit
  | succ limit ih =>
    unfold runUpTo at hrun
    split at hrun
    · cases hrun
      exact h
    · next hlimit => cases hlimit
    · next task queue _ hqueue hlimit =>
      cases hlimit
      refine ih ?_ hrun
      have hpending := (Queue.pop?_eq_some_iff ..).1 hqueue
      -- All components are somebody's, so one of the two works on the task.
      rcases h.components _ (h.left.due task (hpending ▸ List.mem_cons_self)) with hmine | hother
      · exact h.worked hv hmine hqueue
      · exact (h.symm.worked (h.separate.shared ▸ hv) hother hqueue).symm

theorem Parting.beside (h : Parting v P Q s) : P.Beside Q s ∧ v.Shares P.shared := by
  induction h with
  | @start own other shared network config hobservers hlinks hhandles hstill hshared hv hown hother
      hseparate =>
    have hsettled {objects : Nat → Prop} (hbrings : (bringing objects shared).Brings network) :
        (bringing objects shared).Settled ({ network, config } : Scene α) :=
      hbrings.settled (s := { network, config }) hobservers rfl hstill hshared
    refine ⟨⟨hsettled hown, hsettled hother,
      ⟨rfl, hseparate, fun _ => False.elim, fun _ => False.elim, fun _ => False.elim⟩,
      ?_, ?_, ?_, tidy_start hobservers hlinks hhandles⟩, hv⟩
    · simp [hlinks]
    · simp [hobservers]
    · exact fun c hc => absurd hc (Nat.not_lt_zero c)
  | turn _ ih => exact ⟨ih.1.symm, ih.1.separate.shared ▸ ih.2⟩
  | does _ hdoes ih => exact ⟨(ih.1.does ih.2 hdoes).1, ih.2⟩
  | drained _ hrun ih => exact ⟨ih.1.drained ih.2 hrun, ih.2⟩

/-! ### No interference -/

/-- One party has one of the models. -/
def holding (model : ObjectRef) : Realm := bringing (· = model.id) fun _ => False

end Realm

end ReactiveView
