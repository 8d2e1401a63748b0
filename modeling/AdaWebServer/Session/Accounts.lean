import AdaWebServer.Session.Database

/-!
# The accounts of the session database

Every session has a serial number of its own, which no later session gets, and its time stamp is not
before any of its uses.  A call of a request task leaves sessions as they are, uses them, creates new
ones or removes them.
-/

namespace AdaWebServer
namespace Session

open Http2 (Text)

namespace Database

/-- The accounts agree with the sessions, whose uses are not in the future. -/
structure Sound (now : Int) (db : Database) : Prop where
  serial_lt : ∀ {sid : Id} {node : SessionNode}, db.sessions[sid]? = some node →
    node.serial < db.created
  serial_unique : ∀ {sid other : Id} {node node' : SessionNode}, db.sessions[sid]? = some node →
    db.sessions[other]? = some node' → node.serial = node'.serial → sid = other
  stamp_le : ∀ {sid : Id} {node : SessionNode}, db.sessions[sid]? = some node →
    node.timeStamp ≤ now
  stamped : ∀ {sid : Id} {node : SessionNode}, db.sessions[sid]? = some node →
    ∀ use ∈ db.uses ++ db.earlier, use.serial = node.serial → use.time ≤ node.timeStamp
  used : ∀ use ∈ db.uses ++ db.earlier, use.serial < db.created ∧ use.time ≤ now

/-- What the calls of request tasks do to the sessions. -/
structure Evolves (before after : Database) : Prop where
  created_le : before.created ≤ after.created
  earlier_eq : after.earlier = before.earlier
  /-- A session was there under the same identifier, or is new. -/
  descends : ∀ {sid : Id} {node : SessionNode}, after.sessions[sid]? = some node →
    (∃ old, before.sessions[sid]? = some old ∧ old.serial = node.serial) ∨
      before.created ≤ node.serial
  /-- A use that is recorded is that of a session that was there, or is new. -/
  uses : ∀ use ∈ after.uses, use ∈ before.uses ∨ before.created ≤ use.serial ∨
    ∃ (sid : Id) (node : SessionNode), before.sessions[sid]? = some node ∧ node.serial = use.serial

/-- A change that keeps the accounts. -/
structure Advances (now : Int) (before after : Database) : Prop extends Evolves before after where
  keeps : Sound now before → Sound now after

variable {now : Int} {before middle after db : Database} {sid : Id}

theorem Evolves.refl (db : Database) : Evolves db db where
  created_le := le_rfl
  earlier_eq := rfl
  descends found := .inl ⟨_, found, rfl⟩
  uses _ among := .inl among

theorem Evolves.trans (first : Evolves before middle) (second : Evolves middle after) :
    Evolves before after where
  created_le := le_trans first.created_le second.created_le
  earlier_eq := second.earlier_eq.trans first.earlier_eq
  descends found := by
    rcases second.descends found with ⟨old, old_found, same⟩ | fresh
    · rcases first.descends old_found with ⟨oldest, oldest_found, same'⟩ | fresh
      · exact .inl ⟨oldest, oldest_found, same'.trans same⟩
      · exact .inr (same ▸ fresh)
    · exact .inr (le_trans first.created_le fresh)
  uses use among := by
    rcases second.uses use among with old | fresh | ⟨sid, node, found, same⟩
    · exact first.uses use old
    · exact .inr (.inl (le_trans first.created_le fresh))
    · rcases first.descends found with ⟨oldest, oldest_found, same'⟩ | fresh
      · exact .inr (.inr ⟨sid, oldest, oldest_found, same'.trans same⟩)
      · exact .inr (.inl (same ▸ fresh))

theorem Advances.refl (now : Int) (db : Database) : Advances now db db :=
  ⟨Evolves.refl db, id⟩

theorem Advances.trans (first : Advances now before middle) (second : Advances now middle after) :
    Advances now before after :=
  ⟨first.toEvolves.trans second.toEvolves, fun sound => second.keeps (first.keeps sound)⟩

/-- A lookup after an insertion. -/
theorem getElem?_insert_iff {sessions : Std.TreeMap Id SessionNode} {other : Id}
    {node found : SessionNode} : (sessions.insert sid node)[other]? = some found ↔
      other = sid ∧ found = node ∨ other ≠ sid ∧ sessions[other]? = some found := by
  rw [Std.TreeMap.getElem?_insert]
  by_cases same : other = sid
  · simp [same, eq_comm]
  · simp [same, Ne.symm same]

/-- A lookup after a removal. -/
theorem getElem?_erase_iff {sessions : Std.TreeMap Id SessionNode} {other : Id}
    {found : SessionNode} : (sessions.erase sid)[other]? = some found ↔
      other ≠ sid ∧ sessions[other]? = some found := by
  rw [Std.TreeMap.getElem?_erase]
  by_cases same : other = sid
  · simp [same]
  · simp [same, Ne.symm same]

/-! ## Primitive changes -/

/-- A node that takes the place of an earlier one of the same session. -/
theorem advances_replace {node node' : SessionNode} (found : db.sessions[sid]? = some node)
    (same : node'.serial = node.serial)
    (later : Sound now db → node.timeStamp ≤ node'.timeStamp ∧ node'.timeStamp ≤ now) :
    Advances now db { db with sessions := db.sessions.insert sid node' } where
  created_le := le_rfl
  earlier_eq := rfl
  descends found' := by
    rcases getElem?_insert_iff.mp found' with ⟨rfl, rfl⟩ | ⟨_, old⟩
    · exact .inl ⟨node, found, same.symm⟩
    · exact .inl ⟨_, old, rfl⟩
  uses _ among := .inl among
  keeps sound := by
    have origin : ∀ {other : Id} {entry : SessionNode},
        (db.sessions.insert sid node')[other]? = some entry →
          ∃ old, db.sessions[other]? = some old ∧ entry.serial = old.serial ∧
            old.timeStamp ≤ entry.timeStamp ∧ entry.timeStamp ≤ now := by
      intro other entry found'
      rcases getElem?_insert_iff.mp found' with ⟨rfl, rfl⟩ | ⟨_, old⟩
      · exact ⟨node, found, same, later sound⟩
      · exact ⟨entry, old, rfl, le_rfl, sound.stamp_le old⟩
    constructor
    · intro other entry found'
      obtain ⟨old, old_found, serial_eq, _⟩ := origin found'
      rw [serial_eq]
      exact sound.serial_lt old_found
    · intro first second entry entry' found' found'' serials
      obtain ⟨old, old_found, serial_eq, _⟩ := origin found'
      obtain ⟨old', old_found', serial_eq', _⟩ := origin found''
      exact sound.serial_unique old_found old_found' (by rw [← serial_eq, ← serial_eq', serials])
    · intro other entry found'
      obtain ⟨_, _, _, _, stamp_le⟩ := origin found'
      exact stamp_le
    · intro other entry found' use among serials
      obtain ⟨old, old_found, serial_eq, stamp_le, _⟩ := origin found'
      exact le_trans (sound.stamped old_found use among (serials.trans serial_eq)) stamp_le
    · exact sound.used

theorem advances_use {node : SessionNode} (found : db.sessions[sid]? = some node)
    (stamp : node.timeStamp = now) :
    Advances now db { db with uses := ⟨node.serial, now⟩ :: db.uses } where
  created_le := le_rfl
  earlier_eq := rfl
  descends found' := .inl ⟨_, found', rfl⟩
  uses use among := by
    rcases List.mem_cons.mp among with rfl | old
    · exact .inr (.inr ⟨sid, node, found, rfl⟩)
    · exact .inl old
  keeps sound := by
    refine ⟨sound.serial_lt, sound.serial_unique, sound.stamp_le, ?_, ?_⟩
    · intro other entry found' use among serials
      rcases List.mem_cons.mp among with rfl | old
      · obtain rfl := sound.serial_unique found found' serials
        rw [found] at found'
        cases found'
        exact stamp.ge
      · exact sound.stamped found' use old serials
    · intro use among
      rcases List.mem_cons.mp among with rfl | old
      · exact ⟨sound.serial_lt found, le_rfl⟩
      · exact sound.used use old

/-- Sessions that are removed. -/
theorem advances_remove {sessions : Std.TreeMap Id SessionNode}
    (fewer : ∀ {other : Id} {node : SessionNode}, sessions[other]? = some node →
      db.sessions[other]? = some node) : Advances now db { db with sessions } where
  created_le := le_rfl
  earlier_eq := rfl
  descends found := .inl ⟨_, fewer found, rfl⟩
  uses _ among := .inl among
  keeps sound := {
    serial_lt := fun found => sound.serial_lt (fewer found)
    serial_unique := fun found found' => sound.serial_unique (fewer found) (fewer found')
    stamp_le := fun found => sound.stamp_le (fewer found)
    stamped := fun found => sound.stamped (fewer found)
    used := sound.used }

theorem advances_insert (db : Database) (sid : Id) (now : Int) :
    Advances now db (db.insert sid now) := by
  rw [insert]
  split
  · exact .refl now db
  · refine ⟨⟨Nat.le_succ _, rfl, ?_, ?_⟩, fun sound => ⟨?_, ?_, ?_, ?_, ?_⟩⟩
    · intro other node found
      rcases getElem?_insert_iff.mp found with ⟨rfl, rfl⟩ | ⟨_, old⟩
      · exact .inr le_rfl
      · exact .inl ⟨_, old, rfl⟩
    · intro use among
      rcases List.mem_cons.mp among with rfl | old
      · exact .inr (.inl le_rfl)
      · exact .inl old
    · intro other node found
      rcases getElem?_insert_iff.mp found with ⟨rfl, rfl⟩ | ⟨_, old⟩
      · exact Nat.lt_succ_self _
      · exact Nat.lt_succ_of_lt (sound.serial_lt old)
    · intro first second node node' found found' serials
      rcases getElem?_insert_iff.mp found with ⟨rfl, rfl⟩ | ⟨_, old⟩ <;>
        rcases getElem?_insert_iff.mp found' with ⟨rfl, rfl⟩ | ⟨_, old'⟩
      · rfl
      · exact absurd serials (sound.serial_lt old').ne'
      · exact absurd serials (sound.serial_lt old).ne
      · exact sound.serial_unique old old' serials
    · intro other node found
      rcases getElem?_insert_iff.mp found with ⟨rfl, rfl⟩ | ⟨_, old⟩
      · exact le_rfl
      · exact sound.stamp_le old
    · intro other node found use among serials
      rcases getElem?_insert_iff.mp found with ⟨rfl, rfl⟩ | ⟨_, old⟩ <;>
        rcases List.mem_cons.mp among with rfl | earlier
      · exact le_rfl
      · exact absurd serials (sound.used use earlier).1.ne
      · exact absurd serials (sound.serial_lt old).ne'
      · exact sound.stamped old use earlier serials
    · intro use among
      rcases List.mem_cons.mp among with rfl | earlier
      · exact ⟨Nat.lt_succ_self _, le_rfl⟩
      · exact ⟨Nat.lt_succ_of_lt (sound.used use earlier).1, (sound.used use earlier).2⟩

/-! ## Calls -/

/-- `Get_Node` sets the time stamp of the node that it returns. -/
theorem advances_getNode (db : Database) (sid : Id) (now : Int) :
    Advances now db (db.getNode sid now).2 ∧ ∀ node, (db.getNode sid now).1 = some node →
      (db.getNode sid now).2.sessions[sid]? = some node ∧ node.timeStamp = now := by
  unfold getNode
  cases found : db.sessions[sid]? with
  | none => exact ⟨.refl now db, fun node nothing => nomatch nothing⟩
  | some node =>
      have entered : (db.sessions.insert sid { node with timeStamp := now })[sid]? =
          some { node with timeStamp := now } := getElem?_insert_iff.mpr (.inl ⟨rfl, rfl⟩)
      constructor
      · have replaced : Advances now db { db with
            sessions := db.sessions.insert sid { node with timeStamp := now } } :=
          advances_replace found rfl fun sound => ⟨sound.stamp_le found, le_rfl⟩
        exact replaced.trans (@advances_use now _ sid { node with timeStamp := now } entered rfl)
      · rintro _ ⟨⟩
        exact ⟨entered, rfl⟩

theorem advances_updateRoot (db : Database) (sid : Id) (now : Int)
    (change : Std.TreeMap Text Text → Std.TreeMap Text Text) :
    Advances now db (db.updateRoot sid now change) := by
  obtain ⟨used, entered⟩ := advances_getNode db sid now
  rw [updateRoot]
  cases got : db.getNode sid now with
  | mk result changed =>
      rw [got] at used entered
      cases result with
      | none => exact used
      | some node =>
          obtain ⟨found, stamp⟩ := entered node rfl
          exact used.trans (advances_replace found rfl fun _ => ⟨le_rfl, stamp.le⟩)

theorem advances_newSession {generated : List Id} {result : Id × Database}
    (created : db.newSession now generated = some result) : Advances now db result.2 := by
  induction generated with
  | nil => cases created
  | cons sid later ih =>
      rw [newSession] at created
      split at created
      · exact ih created
      · cases created
        exact advances_insert db sid now

theorem advances_deleteSession (db : Database) (sid : Id) (now : Int) :
    Advances now db (db.deleteSession sid) :=
  advances_remove fun found => (getElem?_erase_iff.mp found).2

theorem advances_deleteIfEmpty (db : Database) (sid : Id) (now : Int) :
    Advances now db (db.deleteIfEmpty sid).2 := by
  rw [deleteIfEmpty]
  split
  · split
    · exact advances_deleteSession db sid now
    · exact .refl now db
  · exact .refl now db

theorem advances_of_same {lockCounter : Nat} {removeMark : Id} :
    Advances now db { db with lockCounter, removeMark } where
  toEvolves := { Evolves.refl db with }
  keeps sound := { sound with }

theorem advances_perform (now : Int) (db : Database) (request : Request) :
    Advances now db (request.perform now db) := by
  cases request with
  | addSession sid => exact advances_insert db sid now
  | newSession generated =>
      rw [Request.perform]
      cases created : db.newSession now generated with
      | none => exact .refl now db
      | some result => exact advances_newSession created
  | deleteSession sid => exact advances_deleteSession db sid now
  | deleteIfEmpty sid => exact advances_deleteIfEmpty db sid now
  | touchSession sid => exact (advances_getNode db sid now).1
  | keyExist sid key => exact (advances_getNode db sid now).1
  | getValue sid key => exact (advances_getNode db sid now).1
  | setValue sid key value =>
      exact advances_updateRoot db sid now fun root => root.insert key value
  | removeKey sid key => exact advances_updateRoot db sid now fun root => root.erase key
  | destroy => exact advances_remove fun found => by simp at found
  | lock => exact advances_of_same
  | unlock => exact advances_of_same

/-! ## The selection -/

theorem collect_sublist (lifetime now : Int) (room : Nat) (entries : List (Id × SessionNode)) :
    (collect lifetime now room entries).1.Sublist entries := by
  induction entries generalizing room with
  | nil => exact List.Sublist.slnil
  | cons entry later ih =>
      rw [collect]
      split
      · split
        · exact (List.nil_sublist later).cons_cons entry
        · exact (ih (room - 1)).cons_cons entry
      · exact (ih room).cons entry

/-- What is collected has expired. -/
theorem expired_of_mem_collect {lifetime : Int} {room : Nat} {entries : List (Id × SessionNode)}
    {entry : Id × SessionNode} (among : entry ∈ (collect lifetime now room entries).1) :
    Expired lifetime now entry.2 := by
  induction entries generalizing room with
  | nil => cases among
  | cons first later ih =>
      rw [collect] at among
      split at among
      · next expired =>
          split at among
          · exact List.mem_singleton.mp among ▸ expired
          · rcases List.mem_cons.mp among with rfl | among
            · exact expired
            · exact ih among
      · exact ih among

theorem prepareExpiredSID_sublist (noSession : Id) (lifetime now : Int) (db : Database) :
    (db.prepareExpiredSID noSession lifetime now).1.Sublist db.sessions.toList := by
  refine (collect_sublist ..).trans ?_
  rw [fromMark]
  split
  · exact List.Sublist.refl _
  · exact List.dropWhile_sublist _

/-- A selected entry is that of a session which has expired. -/
theorem of_mem_prepareExpiredSID {noSession : Id} {lifetime : Int} {entry : Id × SessionNode}
    (among : entry ∈ (db.prepareExpiredSID noSession lifetime now).1) :
    db.sessions[entry.1]? = some entry.2 ∧ Expired lifetime now entry.2 :=
  ⟨Std.TreeMap.mem_toList_iff_getElem?_eq_some.mp
    ((prepareExpiredSID_sublist noSession lifetime now db).subset among),
    expired_of_mem_collect among⟩

theorem Sound.serials_nodup (sound : Sound now db) :
    (db.sessions.toList.map fun entry => entry.2.serial).Nodup := by
  rw [List.Nodup, List.pairwise_map]
  refine Std.TreeMap.distinct_keys_toList.imp_of_mem ?_
  intro first second first_in second_in different same
  have found := Std.TreeMap.mem_toList_iff_getElem?_eq_some.mp first_in
  have found' := Std.TreeMap.mem_toList_iff_getElem?_eq_some.mp second_in
  exact different (Std.LawfulEqCmp.compare_eq_iff_eq.mpr (sound.serial_unique found found' same))

end Database
end Session
end AdaWebServer
