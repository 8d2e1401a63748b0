import AdaWebServer.Http2.Basic
import Mathlib.Tactic.Common

/-!
# The session database

A protected object holds the sessions, each with the time of its last use.  The calls that read or
write the data of a session set this time; the calls that add or remove something wait while an
iterator has locked the database.
-/

namespace AdaWebServer
namespace Session

open Http2 (Text)

/-- `Id`. -/
abbrev Id := Text

/-- `Session_Node`, with the number of sessions that were created before it. -/
structure SessionNode where
  timeStamp : Int
  root : Std.TreeMap Text Text := ∅
  serial : Nat

/-- A use of a session: its serial number, and the time. -/
structure Use where
  serial : Nat
  time : Int
  deriving DecidableEq

/-- `Database`, with the accounts of the sessions that have been created and of their uses, which are
the creation and the calls that set the time stamp. -/
structure Database where
  lockCounter : Nat := 0
  sessions : Std.TreeMap Id SessionNode := ∅
  removeMark : Id
  created : Nat := 0
  /-- Uses since the last selection of expired sessions. -/
  uses : List Use := []
  /-- Uses before it. -/
  earlier : List Use := []

namespace Database

/-- `Sessions.Insert` of a new node, which does nothing when the identifier is there. -/
def insert (db : Database) (sid : Id) (now : Int) : Database :=
  if db.sessions.contains sid then db
  else
    { db with
      sessions := db.sessions.insert sid { timeStamp := now, serial := db.created }
      created := db.created + 1
      uses := ⟨db.created, now⟩ :: db.uses }

/-- `Add_Session`. -/
def addSession (db : Database) (sid : Id) (now : Int) : Database := db.insert sid now

/-- `New_Session`, with the identifiers that `Random_String` returns. -/
def newSession (db : Database) (now : Int) : List Id → Option (Id × Database)
  | [] => none
  | sid :: later =>
      if db.sessions.contains sid then db.newSession now later else some (sid, db.insert sid now)

/-- `Delete_Session`. -/
def deleteSession (db : Database) (sid : Id) : Database :=
  { db with sessions := db.sessions.erase sid }

/-- `Delete_If_Empty`. -/
def deleteIfEmpty (db : Database) (sid : Id) : Bool × Database :=
  match db.sessions[sid]? with
  | some node => if node.root.isEmpty then (true, db.deleteSession sid) else (false, db)
  | none => (false, db)

/-- `Destroy`. -/
def destroy (db : Database) : Database := { db with sessions := ∅ }

/-- `Get_Node`. -/
def getNode (db : Database) (sid : Id) (now : Int) : Option SessionNode × Database :=
  match db.sessions[sid]? with
  | some node =>
      (some { node with timeStamp := now },
        { db with
          sessions := db.sessions.insert sid { node with timeStamp := now }
          uses := ⟨node.serial, now⟩ :: db.uses })
  | none => (none, db)

/-- `Touch_Session`. -/
def touchSession (db : Database) (sid : Id) (now : Int) : Database := (db.getNode sid now).2

/-- `Key_Exist`. -/
def keyExist (db : Database) (sid : Id) (key : Text) (now : Int) : Bool × Database :=
  let (node, db) := db.getNode sid now
  (node.any fun node => node.root.contains key, db)

/-- `Get_Value`. -/
def getValue (db : Database) (sid : Id) (key : Text) (now : Int) : Text × Database :=
  let (node, db) := db.getNode sid now
  ((node.bind fun node => node.root[key]?).getD [], db)

/-- A change of the map of a session, whose time stamp is set. -/
def updateRoot (db : Database) (sid : Id) (now : Int)
    (change : Std.TreeMap Text Text → Std.TreeMap Text Text) : Database :=
  match db.getNode sid now with
  | (some node, db) =>
      { db with sessions := db.sessions.insert sid { node with root := change node.root } }
  | (none, db) => db

/-- `Set_Value`. -/
def setValue (db : Database) (sid : Id) (key value : Text) (now : Int) : Database :=
  db.updateRoot sid now fun root => root.insert key value

/-- `Remove_Key`. -/
def removeKey (db : Database) (sid : Id) (key : Text) (now : Int) : Database :=
  db.updateRoot sid now fun root => root.erase key

/-- `Lock_And_Get_Sessions` and `Lock_And_Get_Session`, without the cursor. -/
def lock (db : Database) : Database := { db with lockCounter := db.lockCounter + 1 }

/-- `Unlock`. -/
def unlock (db : Database) : Database := { db with lockCounter := db.lockCounter - 1 }

/-! ## Expired sessions -/

/-- `Max_Expired`. -/
def maxExpired : Nat := 50

/-- The test of `Prepare_Expired_SID` and `Session_Has_Expired`. -/
def Expired (lifetime now : Int) (node : SessionNode) : Prop := node.timeStamp + lifetime < now

instance (lifetime now : Int) (node : SessionNode) : Decidable (Expired lifetime now node) :=
  inferInstanceAs (Decidable (_ < _))

/-- The loop of `Prepare_Expired_SID`: what has expired, and where the next selection goes on. -/
def collect (lifetime now : Int) :
    Nat → List (Id × SessionNode) → List (Id × SessionNode) × Option Id
  | _, [] => ([], none)
  | room, entry :: later =>
      if Expired lifetime now entry.2 then
        if room = 1 then ([entry], later.head?.map Prod.fst)
        else
          let (found, mark) := collect lifetime now (room - 1) later
          (entry :: found, mark)
      else collect lifetime now room later

/-- The entries from the cursor at which `Prepare_Expired_SID` starts. -/
def fromMark (noSession : Id) (db : Database) : List (Id × SessionNode) :=
  if db.removeMark = noSession ∨ ¬db.sessions.contains db.removeMark then db.sessions.toList
  else db.sessions.toList.dropWhile fun entry => entry.1 ≠ db.removeMark

/-- `Prepare_Expired_SID`. -/
def prepareExpiredSID (noSession : Id) (lifetime now : Int) (db : Database) :
    List (Id × SessionNode) × Database :=
  let (found, mark) := collect lifetime now maxExpired (db.fromMark noSession)
  (found, { db with removeMark := mark.getD noSession })

end Database

/-! ## Requests -/

/-- The calls of the request tasks that have an effect. -/
inductive Request where
  | addSession (sid : Id)
  | newSession (generated : List Id)
  | deleteSession (sid : Id)
  | deleteIfEmpty (sid : Id)
  | touchSession (sid : Id)
  | keyExist (sid : Id) (key : Text)
  | getValue (sid : Id) (key : Text)
  | setValue (sid : Id) (key value : Text)
  | removeKey (sid : Id) (key : Text)
  | destroy
  | lock
  | unlock

namespace Request

/-- The barrier is open if the call is that of an entry. -/
def Open (db : Database) : Request → Prop
  | .addSession _ | .deleteSession _ | .deleteIfEmpty _ | .setValue _ _ _ | .removeKey _ _ =>
      db.lockCounter = 0
  | .newSession generated =>
      db.lockCounter = 0 ∧ ∃ sid ∈ generated, ¬db.sessions.contains sid
  | .unlock => 0 < db.lockCounter
  | .touchSession _ | .keyExist _ _ | .getValue _ _ | .destroy | .lock => True

instance (db : Database) : DecidablePred (Open db)
  | .addSession _ | .deleteSession _ | .deleteIfEmpty _ | .setValue _ _ _ | .removeKey _ _ =>
      inferInstanceAs (Decidable (_ = _))
  | .newSession _ => inferInstanceAs (Decidable (_ ∧ _))
  | .unlock => inferInstanceAs (Decidable (_ < _))
  | .touchSession _ | .keyExist _ _ | .getValue _ _ | .destroy | .lock => isTrue trivial

/-- Effect of a call at a time. -/
def perform (now : Int) (db : Database) : Request → Database
  | .addSession sid => db.addSession sid now
  | .newSession generated => ((db.newSession now generated).map Prod.snd).getD db
  | .deleteSession sid => db.deleteSession sid
  | .deleteIfEmpty sid => (db.deleteIfEmpty sid).2
  | .touchSession sid => db.touchSession sid now
  | .keyExist sid key => (db.keyExist sid key now).2
  | .getValue sid key => (db.getValue sid key now).2
  | .setValue sid key value => db.setValue sid key value now
  | .removeKey sid key => db.removeKey sid key now
  | .destroy => db.destroy
  | .lock => db.lock
  | .unlock => db.unlock

end Request
end Session
end AdaWebServer
