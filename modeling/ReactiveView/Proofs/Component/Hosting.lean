import ReactiveView.Proofs.Component.Keeping
import ReactiveView.Proofs.Network.Keepers

/-!
This module contains that the commands of a host leave things kept: observers are the host's, and
bindings are kept by the handles that it has for them.
-/

namespace ReactiveView

open Network

namespace Scene

variable {α : Type} {s : Scene α} {H : Nat → Prop} {network : Network}

theorem tidy_of_tidied
    (h : Tidied (s.stands H) s.network s.keeps [] network) : ({ s with network } : Scene α).Tidy H := by
  have hkeeps : ({ s with network } : Scene α).keeps = s.keeps := keeps_congr rfl h.lasts.handles
  unfold Scene.Tidy
  rw [hkeeps]
  exact h.tidy

theorem Tidy.watched (hs : s.Tidy H) (o : ObjectRef) (attr id : String) {actions : List Command}
    (hactions : ∀ c ∈ actions, c.Modest) :
    ({ s with network := s.network.watched o attr id actions } : Scene α).Tidy
      fun i => H i ∨ i = s.network.nextObserver := by
  obtain ⟨htidy, hlasts⟩ := Network.Tidy.watched hs o attr id hactions
  have hstands : s.stands (fun i => H i ∨ i = s.network.nextObserver)
      = (s.stands H).add .host s.network.nextObserver := by
    funext a i
    refine propext ?_
    unfold Keeping.add
    cases a <;> simp
  have hkeeps : ({ s with network := s.network.watched o attr id actions } : Scene α).keeps
      = s.keeps := keeps_congr rfl hlasts.handles
  unfold Scene.Tidy
  rw [hkeeps]
  exact hstands ▸ htidy

/-- A binding that has been tied for the host gets the name of a handle, whose binding is cut. -/
theorem tidy_handled {r : Option Nat} {net : Network}
    (htied : Tidied (s.stands H) s.network (s.keeps.tie .host (.ok r)) [] net) (name : String) :
    ({ s with network := net.handled name r } : Scene α).Tidy H := by
  obtain ⟨K, hK⟩ : ∃ K, K = s.keeps.tie .host (.ok r) := ⟨_, rfl⟩
  have hiff (a : Keeper) (k : Nat) : K a k ↔ s.keeps a k ∨ a = .host ∧ r = some k :=
    hK ▸ Keeping.tie_ok_iff
  rw [← hK] at htied
  -- Until the previous binding of the handle is cut the new one is the host's own, as a handle may
  -- keep only one. So the handle and the host change places at the end.
  have hprevious : K.without (net.desk.handles.get? name).join.toList = K.except (.handle name) := by
    refine Keeping.without_eq_except htied.tidy.keeper fun k => (hiff ..).trans ?_
    simp [htied.lasts.handles, Option.join_eq_some_iff]
  obtain ⟨htidy, hlasts⟩ := (htied.tidy.desk
    { net.desk with handles := net.desk.handles.insert name r }).dropLinks
      (net.desk.handles.get? name).join.toList
  rw [hprevious, ← handled_eq] at htidy
  rw [← handled_eq] at hlasts
  have hkeeps : ({ s with network := net.handled name r } : Scene α).keeps
      = fun a => K.except (.handle name) (a.takeOver name) := by
    funext a k
    refine propext ?_
    unfold Keeping.except
    rw [hiff]
    cases a with
    | host => simp [Keeper.takeOver]
    | component c => simp [Keeper.takeOver, kept?, component?]
    | handle other =>
      by_cases hother : other = name
      · subst hother
        simp [Keeper.takeOver, hlasts.handles]
      · simp [Keeper.takeOver, hother, hlasts.handles, htied.lasts.handles, Table.get?_insert]
  unfold Scene.Tidy
  rw [hkeeps]
  exact htidy.swap (Keeper.takeOver_takeOver name)

theorem Tidy.released (hs : s.Tidy H) {name : String} {link : Option Nat}
    (hname : s.network.desk.handles.get? name = some link) :
    ({ s with network := s.network.released name link } : Scene α).Tidy H := by
  have hcut : s.keeps.without link.toList = s.keeps.except (.handle name) :=
    Keeping.without_eq_except hs.keeper fun k => by simp [hname]
  obtain ⟨htidy, hlasts⟩ := (hs.desk
    { s.network.desk with handles := s.network.desk.handles.erase name }).dropLinks link.toList
  rw [hcut, ← released_eq] at htidy
  rw [← released_eq] at hlasts
  have hkeeps : ({ s with network := s.network.released name link } : Scene α).keeps
      = s.keeps.except (.handle name) := by
    funext a k
    refine propext ?_
    unfold Keeping.except
    cases a with
    | host => simp
    | component c => simp [kept?, component?]
    | handle other => by_cases hother : other = name <;> simp [hother, hlasts.handles, Table.get?_erase]
  unfold Scene.Tidy
  rw [hkeeps]
  exact htidy

/-- Whatever a prudent host asks for, things are kept afterwards. -/
theorem Tidy.performed (hs : s.Tidy H) {n : Nat} {command : Command} (hprudent : command.Prudent)
    (h : Performs n none s.network command network) :
    ∃ H, ({ s with network } : Scene α).Tidy H := by
  have hmodest (hm : command.Modest) : ∃ H, ({ s with network } : Scene α).Tidy H :=
    ⟨H, tidy_of_tidied ((retains n).performs hs hm h)⟩
  cases h with
  | answered => exact ⟨H, hs⟩
  | evaluated e => exact ⟨H, tidy_of_tidied (hs.evaluated _ e)⟩
  | layered names => exact ⟨H, tidy_of_tidied (hs.same rfl (fun _ h => h) rfl rfl rfl rfl)⟩
  | assigned | put | emitted | forgot | executed => exact hmodest trivial
  | observed => exact ⟨_, hs.watched _ _ _ hprudent⟩
  | @unobserved _ _ watch => exact ⟨H, Network.Tidy.unsubscribe hs watch.observer⟩
  | @unconnected _ _ _ _ _ o _ _ _ _ _ hconnect =>
    have hheld := Network.Tidy.hold hs [o.id]
    refine ⟨H, tidy_of_tidied (hheld.bind fun hheld => ?_)⟩
    exact ((retains n).connect .host hheld hconnect).bind fun hnet => hnet.letGo _
  | @connected _ _ _ _ handle o _ _ _ _ _ hconnect =>
    have hheld := Network.Tidy.hold hs [o.id]
    refine ⟨H, tidy_handled (hheld.bind fun hheld => ?_) handle⟩
    exact ((retains n).connect .host hheld hconnect).bind fun hnet => hnet.letGo _
  | dropped hhandle => exact ⟨H, hs.released hhandle⟩

theorem Tidy.served (hs : s.Tidy H) {command : Command} (hprudent : command.Prudent) :
    ∃ H, ({ s with network := (s.network.command command).2 } : Scene α).Tidy H := by
  have hlimit : nestingLimit = 999999 + 1 := rfl
  rcases hrun : ReactiveView.perform nestingLimit none command s.network with _ | ⟨outcome, network⟩
  · have hsame : (s.network.command command).2 = s.network := by
      simp only [Network.command, Network.run, hrun]
    exact ⟨H, hsame.symm ▸ hs⟩
  · have hnetwork : (s.network.command command).2 = network := by
      simp only [Network.command, Network.run, hrun]
    rw [hlimit] at hrun
    exact hnetwork.symm ▸ hs.performed hprudent (perform_cases hrun)

end Scene

end ReactiveView
