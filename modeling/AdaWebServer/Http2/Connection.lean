import AdaWebServer.Http2.Basic
import Mathlib.Logic.Function.Basic

/-!
# Connection settings

One record holds the settings of a connection.  It is initialised from the configuration of the
server, overwritten by every settings frame of the peer, and read for both directions.
-/

namespace AdaWebServer
namespace Http2

/-- `Frame.Settings.Settings_Kind`. -/
inductive SettingsKind where
  | headerTableSize
  | enablePush
  | maxConcurrentStreams
  | initialWindowSize
  | maxFrameSize
  | maxHeaderListSize
  deriving DecidableEq, Repr

/-- `Frame.Settings.Payload`, one entry of a settings frame. -/
structure SettingsPayload where
  /-- Identifier of the setting. -/
  id : SettingsKind
  /-- Value of the setting, a `Byte_4`. -/
  value : UInt32
  deriving DecidableEq, Repr

/-- `Frame.Settings.Set`. -/
abbrev SettingsSet := List SettingsPayload

/-- The parameters of `AWS.Config` that the connection reads. -/
structure Config where
  headerTableSize : Positive
  maxConcurrentStreams : Positive
  initialWindowSize : Positive
  maxFrameSize : Positive
  maxHeaderListSize : Positive
  enablePush : Bool
  uploadSizeLimit : Positive
  deriving DecidableEq, Repr

/-- The values of `AWS.Default`. -/
def Config.default : Config where
  headerTableSize := ⟨4096, by decide⟩
  maxConcurrentStreams := ⟨250, by decide⟩
  initialWindowSize := ⟨65535, by decide⟩
  maxFrameSize := ⟨16384, by decide⟩
  maxHeaderListSize := ⟨1048576, by decide⟩
  enablePush := false
  uploadSizeLimit := ⟨0x500000, by decide⟩

/-- `Frame.Settings.To_Set`: the settings this endpoint announces. -/
def toSet (config : Config) : SettingsSet :=
  [⟨.headerTableSize, UInt32.ofNat config.headerTableSize⟩,
    ⟨.enablePush, if config.enablePush then 1 else 0⟩,
    ⟨.maxConcurrentStreams, UInt32.ofNat config.maxConcurrentStreams⟩,
    ⟨.initialWindowSize, UInt32.ofNat config.initialWindowSize⟩,
    ⟨.maxFrameSize, UInt32.ofNat config.maxFrameSize⟩,
    ⟨.maxHeaderListSize, UInt32.ofNat config.maxHeaderListSize⟩]

/-- `Connection.Object`. -/
structure Connection where
  /-- Current value of each setting. -/
  values : SettingsKind → Nat
  /-- Maximum size of the dynamic header tables. -/
  dynamicHeaderTableSize : Nat
  /-- Octets that may still be sent on the connection. -/
  flowSendWindow : Int
  /-- Octets that may still be received on the connection. -/
  flowReceiveWindow : Int

namespace Connection

/-- `Default_Values`. -/
def defaultValues : SettingsKind → Nat
  | .headerTableSize => Config.default.headerTableSize
  | .enablePush => 0
  | .maxConcurrentStreams => Config.default.maxConcurrentStreams
  | .initialWindowSize => Config.default.initialWindowSize
  | .maxFrameSize => Config.default.maxFrameSize
  | .maxHeaderListSize => Config.default.maxHeaderListSize

/-- A connection record before any setting is applied. -/
def initial : Connection where
  values := defaultValues
  dynamicHeaderTableSize := defaultValues .headerTableSize
  flowSendWindow := defaultValues .initialWindowSize
  flowReceiveWindow := defaultValues .initialWindowSize

/-- `Header_Table_Size`. -/
def headerTableSize (self : Connection) : Nat := self.values .headerTableSize

/-- `Max_Concurrent_Streams`. -/
def maxConcurrentStreams (self : Connection) : Nat := self.values .maxConcurrentStreams

/-- `Initial_Window_Size`. -/
def initialWindowSize (self : Connection) : Nat := self.values .initialWindowSize

/-- `Max_Frame_Size`, converted to the 24-bit `Length_Type`. -/
def maxFrameSize (self : Connection) : Except Exn Nat :=
  if self.values .maxFrameSize < 2 ^ 24 then
    .ok (self.values .maxFrameSize)
  else
    .error .constraintError

/-- `Max_Header_List_Size`. -/
def maxHeaderListSize (self : Connection) : Nat := self.values .maxHeaderListSize

/-- Record the entries of a settings frame one after the other. -/
def setEntries (values : SettingsKind → Nat) : SettingsSet → Except Exn (SettingsKind → Nat)
  | [] => .ok values
  | entry :: entries => do
      let value ← natural entry.value.toNat
      setEntries (Function.update values entry.id value) entries

/-- `Set`: record all settings, and reset the size of the dynamic tables. -/
def set (self : Connection) (entries : SettingsSet) : Except Exn Connection := do
  let values ← setEntries self.values entries
  return { self with values, dynamicHeaderTableSize := values .headerTableSize }

/-- `Set_Dynamic_Header_Table_Size`. -/
def setDynamicHeaderTableSize (self : Connection) (size : Nat) : Connection :=
  { self with dynamicHeaderTableSize := size }

/-- `Flow_Control_Window_Valid`. -/
def flowControlWindowValid (current increment : Int) : Bool :=
  increment ≤ 0 || current ≤ 2 ^ 31 - 1 - increment

/-- `Update_Flow_Control_Window`. -/
def updateFlowControlWindow (self : Connection) (increment : Int) : Connection :=
  { self with flowSendWindow := self.flowSendWindow + increment }

/-- `Update_Flow_Receive_Window`. -/
def updateFlowReceiveWindow (self : Connection) (increment : Int) : Connection :=
  { self with flowReceiveWindow := self.flowReceiveWindow + increment }

@[simp]
theorem setDynamicHeaderTableSize_values (self : Connection) (size : Nat) :
    (self.setDynamicHeaderTableSize size).values = self.values := rfl

@[simp]
theorem setDynamicHeaderTableSize_size (self : Connection) (size : Nat) :
    (self.setDynamicHeaderTableSize size).dynamicHeaderTableSize = size := rfl

@[simp]
theorem setDynamicHeaderTableSize_headerTableSize (self : Connection) (size : Nat) :
    (self.setDynamicHeaderTableSize size).headerTableSize = self.headerTableSize := rfl

@[simp]
theorem setDynamicHeaderTableSize_flowSendWindow (self : Connection) (size : Nat) :
    (self.setDynamicHeaderTableSize size).flowSendWindow = self.flowSendWindow := rfl

@[simp]
theorem setDynamicHeaderTableSize_flowReceiveWindow (self : Connection) (size : Nat) :
    (self.setDynamicHeaderTableSize size).flowReceiveWindow = self.flowReceiveWindow := rfl

/-! ## What a settings frame records -/

/-- Last value given to a setting by a list of entries. -/
def lastValue (id : SettingsKind) : SettingsSet → Option Nat
  | [] => none
  | entry :: entries =>
      (lastValue id entries).or (if entry.id = id then some entry.value.toNat else none)

/-- Every entry of the list is a `Natural`. -/
def Convertible (entries : SettingsSet) : Prop :=
  ∀ entry ∈ entries, entry.value.toNat ≤ naturalLast

instance (entries : SettingsSet) : Decidable (Convertible entries) :=
  inferInstanceAs (Decidable (∀ entry ∈ entries, _))

theorem lastValue_le {entries : SettingsSet} (convertible : Convertible entries)
    {id : SettingsKind} {value : Nat} (last : lastValue id entries = some value) :
    value ≤ naturalLast := by
  induction entries with
  | nil => cases last
  | cons entry entries ih =>
      rw [lastValue] at last
      cases later : lastValue id entries with
      | some other =>
          rw [later] at last
          cases last
          exact ih (fun entry member => convertible entry (List.mem_cons_of_mem _ member)) later
      | none =>
          rw [later, Option.none_or] at last
          split at last
          · cases last
            exact convertible entry List.mem_cons_self
          · cases last

theorem setEntries_of_convertible {entries : SettingsSet} (convertible : Convertible entries)
    (values : SettingsKind → Nat) :
    setEntries values entries = .ok fun id => (lastValue id entries).getD (values id) := by
  induction entries generalizing values with
  | nil => rfl
  | cons entry entries ih =>
      have head : entry.value.toNat ≤ naturalLast := convertible entry List.mem_cons_self
      have tail : Convertible entries := fun other member =>
        convertible other (List.mem_cons_of_mem entry member)
      simp only [setEntries, natural_of_le head, bind, Except.bind, ih tail]
      congr 1
      funext id
      cases later : lastValue id entries with
      | some value => simp [lastValue, later]
      | none =>
          by_cases same : entry.id = id
          · subst same
            simp [lastValue, later]
          · simp [lastValue, later, same, Function.update_of_ne (Ne.symm same)]

theorem convertible_of_setEntries {entries : SettingsSet} {values after : SettingsKind → Nat}
    (done : setEntries values entries = .ok after) : Convertible entries := by
  induction entries generalizing values with
  | nil => intro entry member; cases member
  | cons entry entries ih =>
      rw [setEntries] at done
      by_cases small : entry.value.toNat ≤ naturalLast
      · rw [natural_of_le small] at done
        intro other member
        rcases List.mem_cons.mp member with rfl | later
        · exact small
        · exact ih done other later
      · rw [natural_of_gt (not_le.mp small)] at done
        cases done

/-- A settings frame is recorded exactly when all its values are `Natural`. -/
theorem set_eq_ok_iff {self after : Connection} {entries : SettingsSet} :
    self.set entries = .ok after ↔
      Convertible entries ∧
        after = { self with
          values := fun id => (lastValue id entries).getD (self.values id)
          dynamicHeaderTableSize :=
            (lastValue .headerTableSize entries).getD (self.values .headerTableSize) } := by
  constructor
  · intro done
    have convertible : Convertible entries := by
      cases recorded : setEntries self.values entries with
      | error exn => simp [set, recorded, bind, Except.bind] at done
      | ok values => exact convertible_of_setEntries recorded
    refine ⟨convertible, ?_⟩
    simpa [set, setEntries_of_convertible convertible, bind, Except.bind, pure, Except.pure,
      eq_comm] using done
  · rintro ⟨convertible, rfl⟩
    simp [set, setEntries_of_convertible convertible, bind, Except.bind, pure, Except.pure]

theorem set_of_convertible {entries : SettingsSet} (convertible : Convertible entries)
    (self : Connection) : ∃ after, self.set entries = .ok after :=
  ⟨_, set_eq_ok_iff.mpr ⟨convertible, rfl⟩⟩

/-- The value of each setting after a settings frame. -/
theorem set_values {self after : Connection} {entries : SettingsSet}
    (recorded : self.set entries = .ok after) (id : SettingsKind) :
    after.values id = (lastValue id entries).getD (self.values id) := by
  obtain ⟨_, rfl⟩ := set_eq_ok_iff.mp recorded
  rfl

/-- A settings frame leaves the windows of the connection alone. -/
theorem set_windows {self after : Connection} {entries : SettingsSet}
    (recorded : self.set entries = .ok after) :
    after.flowSendWindow = self.flowSendWindow ∧
      after.flowReceiveWindow = self.flowReceiveWindow := by
  obtain ⟨_, rfl⟩ := set_eq_ok_iff.mp recorded
  exact ⟨rfl, rfl⟩

/-- A settings frame sets both limits of the header tables to the same value. -/
theorem set_headerTableSize {self after : Connection} {entries : SettingsSet}
    (recorded : self.set entries = .ok after) :
    after.headerTableSize = (lastValue .headerTableSize entries).getD self.headerTableSize ∧
      after.dynamicHeaderTableSize = after.headerTableSize := by
  obtain ⟨_, rfl⟩ := set_eq_ok_iff.mp recorded
  exact ⟨rfl, rfl⟩

/-! ## The settings of this endpoint -/

/-- The record once `Set` has been called with the configuration of the server. -/
def configured (config : Config) : Connection :=
  match initial.set (toSet config) with
  | .ok settings => settings
  | .error _ => initial

private theorem toNat_ofNat_positive (number : Positive) :
    (UInt32.ofNat number).toNat = number.val := by
  have small := number.2.2
  simp only [naturalLast] at small
  rw [UInt32.toNat_ofNat']
  exact Nat.mod_eq_of_lt (by omega)

theorem convertible_toSet (config : Config) : Convertible (toSet config) := by
  intro entry member
  simp only [toSet, List.mem_cons, List.not_mem_nil, or_false] at member
  rcases member with rfl | rfl | rfl | rfl | rfl | rfl
  · exact (toNat_ofNat_positive _).trans_le config.headerTableSize.2.2
  · cases config.enablePush <;> decide
  · exact (toNat_ofNat_positive _).trans_le config.maxConcurrentStreams.2.2
  · exact (toNat_ofNat_positive _).trans_le config.initialWindowSize.2.2
  · exact (toNat_ofNat_positive _).trans_le config.maxFrameSize.2.2
  · exact (toNat_ofNat_positive _).trans_le config.maxHeaderListSize.2.2

/-- The configured value of a setting. -/
def configValue (config : Config) : SettingsKind → Nat
  | .headerTableSize => config.headerTableSize
  | .enablePush => if config.enablePush then 1 else 0
  | .maxConcurrentStreams => config.maxConcurrentStreams
  | .initialWindowSize => config.initialWindowSize
  | .maxFrameSize => config.maxFrameSize
  | .maxHeaderListSize => config.maxHeaderListSize

theorem lastValue_toSet (config : Config) (id : SettingsKind) :
    lastValue id (toSet config) = some (configValue config id) := by
  have push : (if config.enablePush then (1 : UInt32) else 0).toNat =
      if config.enablePush then 1 else 0 := by
    cases config.enablePush <;> rfl
  have values := toNat_ofNat_positive
  cases id <;> simp only [lastValue, toSet, configValue, push, values] <;> rfl

theorem configured_eq (config : Config) :
    configured config =
      { initial with
        values := configValue config
        dynamicHeaderTableSize := config.headerTableSize } := by
  rw [configured, set_eq_ok_iff.mpr ⟨convertible_toSet config, rfl⟩]
  simp only [lastValue_toSet, Option.getD_some]
  rfl

end Connection
end Http2
end AdaWebServer
