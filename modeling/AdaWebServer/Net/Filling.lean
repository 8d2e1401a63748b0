import AdaWebServer.Net.Occupancy

/-!
# Sets that are filled in order

A set is filled by adding sockets one after the other, each with data that are set at the position it
got, and is emptied before it is filled again.
-/

namespace AdaWebServer
namespace Net

open Http2 (Exn)

variable {σ δ : Type} {getFd : σ → Int}

/-- The data at the positions of the sockets. -/
def SocketSet.dataOf (set : SocketSet σ δ) : List δ :=
  (List.range set.count).filterMap fun place => set.getData (place + 1)

/-- The set holds these sockets with these data, in this order. -/
structure SocketSet.Filled (getFd : σ → Int) (set : SocketSet σ δ) (pairs : List (σ × δ)) :
    Prop where
  ledger : ∃ ledger : Ledger σ δ, set.Corresponds getFd ledger ∧ ledger.count = pairs.length ∧
    ∀ place pair, pairs[place]? = some pair →
      (ledger.occupant (place + 1)).pair = (some pair.1, some pair.2)

namespace SocketSet

variable {set : SocketSet σ δ} {pairs : List (σ × δ)}

theorem filled_none : Filled getFd (none : SocketSet σ δ) [] where
  ledger := ⟨{}, rfl, rfl, fun _ _ found => by cases found⟩

theorem Filled.count (filled : set.Filled getFd pairs) : set.count = pairs.length := by
  obtain ⟨ledger, corresponds, count, _⟩ := filled.ledger
  rw [corresponds.count, count]

/-- What is at a position. -/
theorem Filled.record (filled : set.Filled getFd pairs) {place : Nat} {pair : σ × δ}
    (found : pairs[place]? = some pair) :
    set.getSocket (place + 1) = some pair.1 ∧ set.getData (place + 1) = some pair.2 := by
  have within : place < pairs.length := (List.getElem?_eq_some_iff.mp found).1
  have in_set : place + 1 ≤ set.count := by
    rw [filled.count]
    exact within
  obtain ⟨ledger, corresponds, _, occupied⟩ := filled.ledger
  obtain ⟨socket_eq, data_eq⟩ := Prod.mk.inj (occupied place pair found)
  have positions : Matches getFd (set.record (place + 1)) (set.entry (place + 1))
      (ledger.occupant (place + 1)) := by
    cases set with
    | none => exact absurd in_set (Nat.not_succ_le_zero place)
    | some contents =>
        exact Contents.Corresponds.positions corresponds _ (Nat.succ_pos place) in_set
  exact ⟨positions.socket.trans socket_eq, positions.data _ data_eq⟩

private theorem filterMap_range {α : Type} (items : List α) :
    (List.range items.length).filterMap (items[·]?) = items := by
  induction items with
  | nil => rfl
  | cons item rest ih =>
      rw [List.length_cons, List.range_succ_eq_map, List.filterMap_cons, List.filterMap_map]
      exact congrArg (item :: ·) ih

theorem Filled.dataOf (filled : set.Filled getFd pairs) : set.dataOf = pairs.map Prod.snd := by
  have each : ∀ place ∈ List.range pairs.length,
      set.getData (place + 1) = (pairs.map Prod.snd)[place]? := by
    intro place among
    have within := List.mem_range.mp among
    have found : pairs[place]? = some pairs[place] := List.getElem?_eq_getElem within
    rw [(filled.record found).2, List.getElem?_map, found, Option.map_some]
  rw [SocketSet.dataOf, filled.count, List.filterMap_congr each]
  have all := filterMap_range (pairs.map Prod.snd)
  rwa [List.length_map] at all

/-- `Is_Write_Ready` and the like are possible at every position. -/
theorem Filled.status (filled : set.Filled getFd pairs) {place : Nat} (within : place < pairs.length) :
    ∃ events, set.status (place + 1) = .ok events := by
  have in_set : place + 1 ≤ set.count := by
    rw [filled.count]
    exact within
  cases set with
  | none => exact absurd in_set (Nat.not_succ_le_zero place)
  | some contents => exact ⟨_, if_pos ⟨Nat.succ_pos place, in_set⟩⟩

/-- A socket is added and its data are set at its position. -/
theorem Filled.add (filled : set.Filled getFd pairs) {socket : σ} (described : 0 ≤ getFd socket)
    (data : δ) (mode : WaitEventSet) :
    ∃ added, SocketSet.add getFd socket false none mode set = .ok () added ∧
      ∃ next, SocketSet.setData (pairs.length + 1) data added = .ok () next ∧
        next.Filled getFd (pairs ++ [(socket, data)]) := by
  obtain ⟨ledger, corresponds, count, occupied⟩ := filled.ledger
  obtain ⟨added, added_eq⟩ := SocketSet.add_described corresponds described false none mode
  have after_add : SocketSet.Corresponds getFd (some added)
      (ledger.add { socket := some socket, mode }) := by
    have agrees := Agrees.add corresponds (.inr described) false none mode
    rwa [added_eq] at agrees
  have last : added.poll.length = pairs.length + 1 := by
    rw [Contents.Corresponds.count after_add, ← count]
    rfl
  have here := Contents.Corresponds.positions after_add (pairs.length + 1) (Nat.succ_pos _) last.ge
  have in_range : SocketSet.InRange (some added) (pairs.length + 1) := by
    refine ⟨Nat.succ_pos _, last.ge, ?_⟩
    show (added.set.record (pairs.length + 1)).socket.isSome = true
    rw [here.socket]
    exact here.present
  have set_eq : SocketSet.setData (pairs.length + 1) data (some added) =
      .ok () (some { added with
        set := added.set.modifyAt (pairs.length + 1) ({ · with data := some data }) }) :=
    if_pos ⟨Nat.succ_pos _, last ▸ Contents.Corresponds.length_le after_add⟩
  have after_set := Agrees.setData after_add in_range data
  rw [set_eq] at after_set
  refine ⟨_, added_eq, _, set_eq, ⟨_, after_set, ?_, ?_⟩⟩
  · show ledger.count + 1 = _
    rw [count, List.length_append, List.length_singleton]
  · intro place pair found
    dsimp only [Ledger.replace, Ledger.add]
    rw [count]
    by_cases new : place = pairs.length
    · subst new
      rw [List.getElem?_append_right le_rfl, Nat.sub_self] at found
      cases found
      rw [Function.update_self, Function.update_self]
      rfl
    · have earlier : place < pairs.length := by
        have := (List.getElem?_eq_some_iff.mp found).1
        rw [List.length_append, List.length_singleton] at this
        omega
      rw [List.getElem?_append_left earlier] at found
      rw [Function.update_of_ne (by omega), Function.update_of_ne (by omega)]
      exact occupied place pair found

theorem Filled.wait (filled : set.Filled getFd pairs) (polled : Nat → EventsType) :
    ∃ count next, SocketSet.wait polled set = .ok count next ∧ next.Filled getFd pairs := by
  obtain ⟨ledger, corresponds, count, occupied⟩ := filled.ledger
  have agrees := Agrees.wait corresponds polled
  cases set with
  | none => exact ⟨0, none, rfl, filled⟩
  | some contents =>
      exact ⟨_, _, rfl, _, agrees, count, occupied⟩

theorem Filled.reset (filled : set.Filled getFd pairs) :
    ∃ next, SocketSet.reset set = .ok () next ∧ next.Filled getFd ([] : List (σ × δ)) := by
  obtain ⟨ledger, corresponds, count, occupied⟩ := filled.ledger
  have agrees := Agrees.reset corresponds
  cases set with
  | none => exact ⟨none, rfl, filled_none⟩
  | some contents =>
      obtain ⟨next, reset_eq, _⟩ :=
        SocketSet.resetFrom_eq contents.poll.length (rfl : contents.poll.length = _)
      have done : SocketSet.reset (some contents) = .ok () (some next) := by
        rw [SocketSet.reset, reset_eq]
      rw [done] at agrees
      exact ⟨some next, done, _, agrees, rfl, fun _ _ found => by cases found⟩

end SocketSet
end Net
end AdaWebServer
