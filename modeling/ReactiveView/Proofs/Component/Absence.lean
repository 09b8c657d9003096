import ReactiveView.Proofs.Component.Parties
import Mathlib

/-!
This module contains scenes from which one of two parties is taken away. As far as the other one goes,
such a scene is the same, and if that has made nothing yet then nothing at all has been made.
-/

namespace ReactiveView

open Classical in
/-- A scene in which there is nothing of a party. The numbers that have been given out stay so. -/
noncomputable def Scene.without {α : Type} (s : Scene α) (Q : Realm) : Scene α :=
  { s with
    network := { s.network with
      store :=
        { objects := s.network.store.objects.mapIdx fun i obj =>
            if Q.objects i then { obj with attrs := Table.empty, alive := false } else obj }
      links := s.network.links.mapIdx fun k slot => if Q.links k then none else slot
      observers := s.network.observers.filter fun ob => !Q.follows ob
      owners := s.network.owners.filter fun i => ¬Q.objects i }
    components := s.components.mapIdx fun c slot => if Q.components c then none else slot
    queue := { pending := s.queue.pending.filter fun task => !Q.minds task } }

/-- Nothing has been made. -/
structure Scene.Bare {α : Type} (s : Scene α) : Prop where
  components : ∀ c, s.component? c = none
  links : ∀ k, s.network.link? k = none
  observers : s.network.observers = []
  tasks : s.queue.pending = []

namespace Realm

open Scene Network

variable {α : Type} {s t : Scene α} {P Q : Realm} {i k c : Nat}

namespace Beside

variable (h : P.Beside Q s)

include h

end Beside

end Realm

end ReactiveView
