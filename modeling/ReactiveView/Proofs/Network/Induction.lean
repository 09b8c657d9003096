import ReactiveView.Proofs.Network.Frame

/-!
This module contains the induction over all computations on a network. A relation between the
networks before and after is carried along by every computation if it can be chained, if it holds of
quiet steps, and if assignments carry it along, given that everything with a smaller budget does.
-/

namespace ReactiveView

open Network

/--
A relation between networks that holds of every step other than an assignment, observers of the host
running commands of `P`.
-/
structure Carrier (P : Command → Prop) (R : Network → Network → Prop) : Prop where
  trans : ∀ {a b c}, R a b → R b c → R a c
  later : ∀ {a b}, R a b → Later P a b
  quiet : ∀ {a b}, Quiet P a b → R a b
  /-- Observers of the host put values only where the relation allows it. -/
  put : ∀ {net : Network} {object attr : String} {value : Term} {o : ObjectRef} (v : Value),
    P (.put object attr value) → net.desk.objects.get? object = some o →
    R net { net with store := net.store.put o attr v }
  /-- What an observer of the host installs runs commands of `P` as well. -/
  observed : ∀ {object attr id : String} {actions : List Command},
    P (.observe object attr id actions) → ∀ c ∈ actions, P c

/--
A relation that every computation with a budget carries along.
-/
structure Carried (P : Command → Prop) (R : Network → Network → Prop) (n : Nat) : Prop where
  assign : ∀ {net net' o attr v r}, net.Hosts P →
    ReactiveView.assign n o attr v net = some (r, net') → R net net'
  announce : ∀ {net net' change u}, net.Hosts P →
    ReactiveView.announce n change net = some (u, net') → R net net'
  react : ∀ {net net' change handler u}, net.Hosts P → handler.Within P →
    ReactiveView.react n change handler net = some (u, net') → R net net'
  refresh : ∀ {net net' link r}, net.Hosts P →
    ReactiveView.refresh n link net = some (r, net') → R net net'
  execute : ∀ {net net' scope statements r}, net.Hosts P →
    ReactiveView.execute n scope statements net = some (r, net') → R net net'
  executeOne : ∀ {net net' scope statement r}, net.Hosts P →
    ReactiveView.executeOne n scope statement net = some (r, net') → R net net'
  connect : ∀ {net net' binding target attr scope r}, net.Hosts P →
    ReactiveView.connect n binding target attr scope net = some (r, net') → R net net'
  perform : ∀ {net net' change command outcome}, net.Hosts P → P command →
    ReactiveView.perform n change command net = some (outcome, net') → R net net'

variable {P : Command → Prop} {R : Network → Network → Prop} {n : Nat} {net net' : Network}

/-- A computation between quiet steps. -/
theorem Carrier.around {a b c d : Network} (hR : Carrier P R) (ha : a.Hosts P)
    (h : b.Hosts P → R b c) (hbefore : Quiet P a b) (hafter : Quiet P c d) : R a d :=
  hR.trans (hR.quiet hbefore) (hR.trans (h (hbefore.hosts ha)) (hR.quiet hafter))

namespace Carried

theorem zero : Carried P R 0 := by
  constructor <;> intros <;> rename_i h <;> cases h

section

variable (hR : Carrier P R) (h : Carried P R n) (hnet : net.Hosts P)

include hR h hnet

theorem reactAll {change : Change} {observers : List Observer}
    (hwithin : ∀ o ∈ observers, o.handler.Within P)
    (hrun : ReactAll n change observers net net') : R net net' := by
  induction hrun with
  | nil => exact hR.quiet (.refl _)
  | cons hhead _ ih =>
    have hfirst := h.react hnet (hwithin _ (List.mem_cons_self ..)) hhead
    exact hR.trans hfirst
      (ih ((hR.later hfirst).hosts hnet) fun o ho => hwithin o (List.mem_cons_of_mem _ ho))

theorem performAll {id : String} {change : Change} {actions : List Command}
    (hwithin : ∀ c ∈ actions, P c) (hrun : PerformAll n id change actions net net') :
    R net net' := by
  induction hrun with
  | nil => exact hR.quiet (.refl _)
  | @cons _ _ outcome _ net₁ _ hhead _ ih =>
    have hfirst := hR.trans (h.perform hnet (hwithin _ (List.mem_cons_self ..)) hhead)
      (hR.quiet (adds_happened net₁ (.action id outcome)).quiet)
    exact hR.trans hfirst
      (ih ((hR.later hfirst).hosts hnet) fun c hc => hwithin c (List.mem_cons_of_mem _ hc))

theorem executeAll {scope : Scope} {statements : List Statement} {r : Except EvalError Unit}
    (hrun : ExecuteAll n scope statements net r net') : R net net' := by
  induction hrun with
  | nil => exact hR.quiet (.refl _)
  | cons hhead _ ih =>
    have hfirst := h.executeOne hnet hhead
    exact hR.trans hfirst (ih ((hR.later hfirst).hosts hnet))
  | stop hhead => exact h.executeOne hnet hhead

theorem reacts {change : Change} {handler : Handler} (hwithin : handler.Within P)
    (hrun : Reacts n change net handler net') : R net net' := by
  cases hrun with
  | refreshed _ hrefresh hecho =>
    exact hR.around hnet (fun henter => h.refresh henter hrefresh) (quiet_enterLink _)
      (hecho.quiet.trans (quiet_leaveLink _))
  | unbound | cut | dead => exact hR.quiet (.refl _)
  | ran _ hexecute hecho =>
    exact hR.around hnet (fun henter => h.execute henter hexecute) (quiet_enterLink _)
      (hecho.quiet.trans (quiet_leaveLink _))
  | passed _ _ hassign hecho =>
    exact hR.around hnet (fun hnet => h.assign hnet hassign) (.refl _) hecho.quiet
  | @hinted widget => exact hR.quiet (adds_signal net widget).quiet
  | hosted hecho hperform =>
    exact hR.around hnet (fun hnet => h.performAll hR hnet hwithin hperform) hecho.quiet (.refl _)

theorem refreshes {link : Nat} {r : Except EvalError Unit}
    (hrun : Refreshes n link net r net') : R net net' := by
  cases hrun with
  | unbound => exact hR.quiet (.refl _)
  | failed | dead => exact hR.quiet (quiet_resubscribed _ _ _)
  | assigned _ _ _ hassign =>
    exact hR.around hnet (fun hhold => h.assign hhold hassign)
      ((quiet_resubscribed _ _ _).trans (quiet_hold _)) (quiet_letGo _)

theorem executesOne {scope : Scope} {statement : Statement} {r : Except EvalError Unit}
    (hrun : ExecutesOne n scope net statement r net') : R net net' := by
  cases hrun with
  | evaluated | noObject => exact hR.quiet (quiet_evaluated _ _)
  | noValue => exact hR.quiet ((quiet_evaluated _ _).trans (quiet_evaluated _ _))
  | assigned _ _ hassign =>
    exact hR.around hnet (fun heval => h.assign heval hassign)
      ((quiet_evaluated _ _).trans (quiet_evaluated _ _)) (.refl _)

theorem connects {binding : Binding} {target : ObjectRef} {attr : String} {scope : Scope}
    {r : Except EvalError (Option Nat)} (hrun : Connects n target attr scope net binding r net') :
    R net net' := by
  cases hrun with
  | noDefault | noSource => exact hR.quiet (quiet_evaluated _ _)
  | default _ hassign =>
    exact hR.around hnet (fun heval => h.assign heval hassign) (quiet_evaluated _ _) (.refl _)
  | noBind hrefresh =>
    exact hR.around hnet (fun hbound => h.refresh hbound hrefresh) (quiet_bound _ _ _ _)
      (quiet_leaveLink _)
  | bind hrefresh =>
    exact hR.around hnet (fun hbound => h.refresh hbound hrefresh) (quiet_bound _ _ _ _)
      ((quiet_ownLink _).trans (quiet_leaveLink _))
  | refused _ _ hassign =>
    exact hR.around hnet (fun hhold => h.assign hhold hassign)
      ((quiet_evaluated _ _).trans (quiet_hold _)) (quiet_letGo _)
  | delegate _ _ hassign =>
    exact hR.around hnet (fun hhold => h.assign hhold hassign)
      ((quiet_evaluated _ _).trans (quiet_hold _)) ((quiet_delegated _ _ _ _).trans (quiet_letGo _))
  | notify => exact hR.quiet (quiet_notified _ _ _ _)

theorem performs {change : Option Change} {command : Command} (hcommand : P command)
    (hrun : Performs n change net command net') : R net net' := by
  cases hrun with
  | answered => exact hR.quiet (.refl _)
  | evaluated => exact hR.quiet (quiet_evaluated _ _)
  | assigned _ _ hassign => exact h.assign hnet hassign
  | put hobject => exact hR.trans (hR.put _ hcommand hobject) (hR.quiet quiet_sweep)
  | emitted _ _ hannounce => exact h.announce hnet hannounce
  | observed => exact hR.quiet (quiet_watched _ _ _ (hR.observed hcommand))
  | unobserved => exact hR.quiet (quiet_unsubscribe _)
  | forgot => exact hR.quiet (quiet_forgot _)
  | layered names => exact hR.quiet (quiet_layered names)
  | executed _ hexecute => exact h.execute hnet hexecute
  | unconnected _ _ hconnect =>
    exact hR.around hnet (fun hhold => h.connect hhold hconnect) (quiet_hold _) (quiet_letGo _)
  | connected _ _ hconnect =>
    exact hR.around hnet (fun hhold => h.connect hhold hconnect) (quiet_hold _)
      ((quiet_letGo _).trans (quiet_handled _ _))
  | dropped => exact hR.quiet (quiet_released _ _)

omit hnet

/-- Only assignments have to be looked at. -/
theorem succ (hassign : ∀ {net net' : Network} {o attr v r}, net.Hosts P →
      ReactiveView.assign (n + 1) o attr v net = some (r, net') → R net net') :
    Carried P R (n + 1) where
  assign := hassign
  announce hnet hrun := by
    obtain ⟨net₁, hall, rfl⟩ := announce_cases hrun
    exact hR.around hnet (fun hhold => h.reactAll hR hhold
      (fun o ho => hnet o (List.mem_filter.1 ho).1) hall) (quiet_hold _) (quiet_letGo _)
  react hnet hwithin hrun := h.reacts hR hnet hwithin (react_cases hrun)
  refresh hnet hrun := h.refreshes hR hnet (refresh_cases hrun)
  execute hnet hrun := h.executeAll hR hnet (execute_cases hrun)
  executeOne hnet hrun := h.executesOne hR hnet (executeOne_cases hrun)
  connect hnet hrun := h.connects hR hnet (connect_cases hrun)
  perform hnet hcommand hrun := h.performs hR hnet hcommand (perform_cases hrun)

end

/-- The relation is carried along by everything if an assignment carries it along whenever all that
it sets off does. -/
theorem of_assigns (hR : Carrier P R)
    (hassign : ∀ {n : Nat} {net net' : Network} {o attr v r}, (∀ m ≤ n, Carried P R m) →
      net.Hosts P → ReactiveView.assign (n + 1) o attr v net = some (r, net') → R net net')
    (n : Nat) : Carried P R n := by
  have hall (n : Nat) : ∀ m ≤ n, Carried P R m := by
    induction n with
    | zero =>
      intro m hm
      obtain rfl := Nat.le_zero.1 hm
      exact zero
    | succ n ih =>
      intro m hm
      rcases Nat.le_succ_iff.1 hm with hle | rfl
      · exact ih m hle
      · exact (ih n (Nat.le_refl n)).succ hR (hassign ih)
  exact hall n n (Nat.le_refl n)

end Carried

/-- Every computation leaves a later network behind, whatever observers of the host do. -/
theorem carried_later (hP : ∀ {object attr id : String} {actions : List Command},
      P (.observe object attr id actions) → ∀ c ∈ actions, P c) (n : Nat) :
    Carried P (Later P) n := by
  have hR : Carrier P (Later P) := ⟨.trans, id, Quiet.toLater, fun _ _ _ => later_put _ _ _, hP⟩
  refine .of_assigns hR (fun ih hnet hrun => ?_) n
  cases assign_cases hrun with
  | refused | unchanged => exact .refl _
  | changed hput hannounce =>
    obtain ⟨rfl, -⟩ := Store.assign_changed hput
    exact (later_put _ _ _).trans ((ih _ (Nat.le_refl _)).announce ((later_put _ _ _).hosts hnet)
      hannounce)

end ReactiveView
