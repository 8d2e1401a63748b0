import AdaWebServer.Containers.HeaderItems
import AdaWebServer.Utils.Numerals

/-!
# Cache control

A cache option is written directive by directive and read by `Headers.Values.Parse`.  The procedures that
receive the values may raise, which ends the loop.
-/

namespace AdaWebServer
namespace Messages

open Http2 (Octet Text text image naturalLast integerValue)
open Containers
open Containers.HeaderValues

/-! ## Procedures that raise -/

section Raising

variable {σ : Type} {data : Text} {first : Nat}

/-- A procedure is called in a state that may be an exception.  The exception ends the loop. -/
def received (receive : Data → σ → Except Failure σ) (element : Data) (state : Except Failure σ) :
    Bool × Except Failure σ :=
  match state >>= receive element with
  | .ok state => (false, .ok state)
  | .error failure => (true, .error failure)

/-- The procedures for `Parse`, where the states may be exceptions. -/
def raising (receive : Data → σ → Except Failure σ) : Handler (Except Failure σ) where
  value item := received receive ⟨none, item⟩
  namedValue name value := received receive ⟨some name, value⟩

/-- `Parse` with procedures that raise. -/
def parseRaising (receive : Data → σ → Except Failure σ) (headerValue : Text) (state : σ) :
    Except Failure σ :=
  parse (raising receive) headerValue (.ok state) >>= id

/-- The values from an index on, up to the end of the line or where `Format_Error` is raised. -/
def valuesFrom (headerValue : Text) (first : Nat) : List Data :=
  if first = 0 then []
  else
    match _found : nextBounds headerValue first with
    | .error _ => []
    | .ok bounds =>
        match dataOf headerValue bounds with
        | .error _ => []
        | .ok element => element :: valuesFrom headerValue bounds.first
termination_by left headerValue first
decreasing_by exact left_lt ‹_› _found

/-- The values of a line. -/
def values (headerValue : Text) : List Data := valuesFrom headerValue (firstIndex headerValue)

theorem valuesFrom_zero : valuesFrom data 0 = [] := by
  rw [valuesFrom]
  rfl

theorem valuesFrom_fails (anchored : Anchored data first) (next_eq : nextValue data first = none) :
    valuesFrom data first = [] := by
  have failed := fails_of_next anchored next_eq
  rw [valuesFrom, if_neg (Nat.ne_of_gt anchored.positive)]
  split
  · rfl
  · next bounds found =>
      rw [failed] at found
      cases found

theorem valuesFrom_step {next : NextValue} (anchored : Anchored data first)
    (next_eq : nextValue data first = some next) :
    valuesFrom data first = ⟨next.name, next.value⟩ :: valuesFrom data next.first := by
  obtain ⟨bounds, bounds_eq, first_eq, data_eq⟩ := sets_of_next anchored next_eq
  rw [valuesFrom, if_neg (Nat.ne_of_gt anchored.positive)]
  split
  · next failure found =>
      rw [bounds_eq] at found
      cases found
  · next bounds' found =>
      rw [bounds_eq] at found
      cases found
      rw [data_eq, ← first_eq]

theorem raising_call (receive : Data → σ → Except Failure σ) (element : Data) (state : σ) :
    (raising receive).call element (.ok state) =
      match receive element state with
      | .ok state => (false, .ok state)
      | .error failure => (true, .error failure) := by
  obtain ⟨_ | name, value⟩ := element <;> rfl

/-- `Parse` receives the values in order, and raises `Format_Error` behind them if it is raised. -/
theorem parseLoop_raising (receive : Data → σ → Except Failure σ) (headerValue : Text) (first : Nat)
    (start : first = 0 ∨ Anchored headerValue first) (state : σ) :
    (parseLoop (raising receive) headerValue first (.ok state) >>= id) =
      (valuesFrom headerValue first).foldlM (fun state element => receive element state) state >>=
        fun result => (toSet headerValue first).map fun _ => result := by
  refine @line_induction headerValue (fun first => ∀ state,
    (parseLoop (raising receive) headerValue first (.ok state) >>= id) =
      (valuesFrom headerValue first).foldlM (fun state element => receive element state) state >>=
        fun result => (toSet headerValue first).map fun _ => result) ?_ ?_ ?_ first start state
  · intro state
    rw [parseLoop_zero, valuesFrom_zero, toSet_zero]
    rfl
  · intro first anchored next_eq state
    rw [parseLoop_fails anchored next_eq, valuesFrom_fails anchored next_eq,
      toSet_fails anchored next_eq]
    rfl
  · intro first next anchored next_eq ih state
    rw [parseLoop_step anchored next_eq, valuesFrom_step anchored next_eq,
      toSet_step anchored next_eq, List.foldlM_cons, raising_call]
    cases receive ⟨next.name, next.value⟩ state with
    | error failure => rfl
    | ok later =>
        refine (ih later).trans (congrArg _ (funext fun result => ?_))
        cases toSet headerValue next.first <;> rfl

theorem parseRaising_eq (receive : Data → σ → Except Failure σ) (headerValue : Text) (state : σ) :
    parseRaising receive headerValue state =
      (values headerValue).foldlM (fun state element => receive element state) state >>=
        fun result => (split headerValue).map fun _ => result :=
  parseLoop_raising receive headerValue _ (start_firstIndex headerValue) state

end Raising

/-! ## Cache data -/

/-- `Delta_Seconds`. -/
abbrev DeltaSeconds := { seconds : Int // -1 ≤ seconds ∧ seconds ≤ naturalLast }

theorem unset_range : -1 ≤ (-1 : Int) ∧ (-1 : Int) ≤ naturalLast := by decide

theorem anyMaxStale_range : -1 ≤ (naturalLast : Int) ∧ (naturalLast : Int) ≤ naturalLast := by decide

/-- `Unset`. -/
def unset : DeltaSeconds := ⟨-1, unset_range⟩

/-- `Any_Max_Stale`, which is `Delta_Seconds'Last`. -/
def anyMaxStale : DeltaSeconds := ⟨naturalLast, anyMaxStale_range⟩

/-- `Private_Unset`. -/
def privateUnset : Text := []

/-- `All_Private`. -/
def allPrivate : Text := text "*"

/-- `Cache_Kind`. -/
inductive CacheKind where
  | request
  | response
  deriving DecidableEq

/-- The components of a `Cache_Data` of a request. -/
structure RequestPart where
  maxStale : DeltaSeconds := unset
  minFresh : DeltaSeconds := unset
  onlyIfCached : Bool := false
  deriving DecidableEq

/-- The components of a `Cache_Data` of a response. -/
structure ResponsePart where
  sMaxAge : DeltaSeconds := unset
  isPublic : Bool := false
  privateField : Text := privateUnset
  mustRevalidate : Bool := false
  proxyRevalidate : Bool := false
  deriving DecidableEq

/-- The variant part of a `Cache_Data`. -/
inductive Variant where
  | request (part : RequestPart)
  | response (part : ResponsePart)
  deriving DecidableEq

/-- `Cache_Data`. -/
structure CacheData where
  noCache : Bool := false
  noStore : Bool := false
  noTransform : Bool := false
  maxAge : DeltaSeconds := unset
  variant : Variant
  deriving DecidableEq

/-- `CKind`. -/
def CacheData.ckind (data : CacheData) : CacheKind :=
  match data.variant with
  | .request _ => .request
  | .response _ => .response

/-- A `Cache_Data` of a kind with its defaults. -/
def CacheData.initial : CacheKind → CacheData
  | .request => { variant := .request {} }
  | .response => { variant := .response {} }

/-- A component of a request is assigned, after the check of the discriminant. -/
def CacheData.onRequest (data : CacheData) (change : RequestPart → RequestPart) :
    Except Failure CacheData :=
  match data.variant with
  | .request part => .ok { data with variant := .request (change part) }
  | .response _ => constraintError

/-- A component of a response is assigned, after the check of the discriminant. -/
def CacheData.onResponse (data : CacheData) (change : ResponsePart → ResponsePart) :
    Except Failure CacheData :=
  match data.variant with
  | .request _ => constraintError
  | .response part => .ok { data with variant := .response (change part) }

/-! ## Reading -/

/-- `Utils.Is_Number`. -/
def isNumber (value : Text) : Bool := value ≠ [] && value.all fun c => 48 ≤ c && c ≤ 57

/-- `Delta_Seconds'Value`. -/
def deltaSecondsValue (value : Text) : Except Failure DeltaSeconds :=
  match integerValue value with
  | some seconds =>
      if range : -1 ≤ seconds ∧ seconds ≤ naturalLast then .ok ⟨seconds, range⟩ else constraintError
  | none => constraintError

/-- `Named_Value`. -/
def namedValue (name value : Text) (data : CacheData) : Except Failure CacheData :=
  if isNumber value then
    if name = text "max-stale" then
      deltaSecondsValue value >>= fun seconds =>
        data.onRequest fun part => { part with maxStale := seconds }
    else if name = text "min-fresh" then
      deltaSecondsValue value >>= fun seconds =>
        data.onRequest fun part => { part with minFresh := seconds }
    else if name = text "max-age" then
      deltaSecondsValue value >>= fun seconds => .ok { data with maxAge := seconds }
    else if name = text "s-maxage" then
      deltaSecondsValue value >>= fun seconds =>
        data.onResponse fun part => { part with sMaxAge := seconds }
    else .ok data
  else if name = text "private" then
    data.onResponse fun part => { part with privateField := value }
  else .ok data

/-- `Simple_Value`. -/
def simpleValue (item : Text) (data : CacheData) : Except Failure CacheData :=
  if item = text "no-cache" then .ok { data with noCache := true }
  else if item = text "no-store" then .ok { data with noStore := true }
  else if item = text "no-transform" then .ok { data with noTransform := true }
  else if item = text "only-if-cached" then
    data.onRequest fun part => { part with onlyIfCached := true }
  else if item = text "public" then data.onResponse fun part => { part with isPublic := true }
  else if item = text "private" then
    data.onResponse fun part => { part with privateField := allPrivate }
  else if item = text "must-revalidate" then
    data.onResponse fun part => { part with mustRevalidate := true }
  else if item = text "proxy-revalidate" then
    data.onResponse fun part => { part with proxyRevalidate := true }
  else .ok data

/-- The procedure for a value is called. -/
def receive : Data → CacheData → Except Failure CacheData
  | ⟨none, item⟩ => simpleValue item
  | ⟨some name, value⟩ => namedValue name value

/-- `To_Cache_Data`. -/
def toCacheData (kind : CacheKind) (value : Text) : Except Failure CacheData :=
  parseRaising receive value (.initial kind)

/-! ## Writing -/

/-- `Append_With_Sep`. -/
def appendWithSep (content value : Text) : Text :=
  (if content ≠ [] then content ++ text ", " else content) ++ value

/-- `Append_With_Sep` under a condition. -/
def appendIf (condition : Bool) (value content : Text) : Text :=
  if condition then appendWithSep content value else content

/-- `Append_With_Sep` of a directive with seconds that are not `Unset`. -/
def appendSeconds (name : Text) (seconds : DeltaSeconds) (content : Text) : Text :=
  if seconds ≠ unset then appendWithSep content (name ++ text "=" ++ image seconds.val.toNat)
  else content

/-- The directive for `Max_Stale`. -/
def appendMaxStale (seconds : DeltaSeconds) (content : Text) : Text :=
  if seconds = anyMaxStale then appendWithSep content (text "max-stale")
  else appendSeconds (text "max-stale") seconds content

/-- The directive for `Private_Field`. -/
def appendPrivate (field content : Text) : Text :=
  if field ≠ privateUnset then
    if field = allPrivate then appendWithSep content (text "private")
    else appendWithSep content (text "private=" ++ field)
  else content

/-- `To_Cache_Option`. -/
def toCacheOption (data : CacheData) : Text :=
  let result := appendIf data.noCache (text "no-cache") []
  let result := appendIf data.noStore (text "no-store") result
  let result := appendIf data.noTransform (text "no-transform") result
  let result := appendSeconds (text "max-age") data.maxAge result
  match data.variant with
  | .request part =>
      let result := appendMaxStale part.maxStale result
      let result := appendSeconds (text "min-fresh") part.minFresh result
      appendIf part.onlyIfCached (text "only-if-cached") result
  | .response part =>
      let result := appendSeconds (text "s-maxage") part.sMaxAge result
      let result := appendIf part.isPublic (text "public") result
      let result := appendPrivate part.privateField result
      let result := appendIf part.mustRevalidate (text "must-revalidate") result
      appendIf part.proxyRevalidate (text "proxy-revalidate") result

/-! ## What is accepted -/

/-- The number is in the range of `Delta_Seconds`. -/
def Fits (value : Text) : Prop := value.foldl Utils.decimalShift 0 ≤ naturalLast

instance (value : Text) : Decidable (Fits value) := inferInstanceAs (Decidable (_ ≤ _))

/-- The kind of data that a directive without a value belongs to, if it is not both. -/
def simpleKind (item : Text) : Option CacheKind :=
  if item = text "only-if-cached" then some .request
  else if item ∈ [text "public", text "private", text "must-revalidate", text "proxy-revalidate"] then
    some .response
  else none

/-- The kind of data that a directive with seconds belongs to, if it is not both. -/
def secondsKind (name : Text) : Option CacheKind :=
  if name ∈ [text "max-stale", text "min-fresh"] then some .request
  else if name = text "s-maxage" then some .response
  else none

/-- The directives with seconds. -/
def secondsNames : List Text :=
  [text "max-stale", text "min-fresh", text "max-age", text "s-maxage"]

/-- A value is not a directive for the other kind of data, and its seconds fit. -/
def Accepts (kind : CacheKind) : Data → Prop
  | ⟨none, item⟩ => ∀ other ∈ simpleKind item, other = kind
  | ⟨some name, value⟩ =>
      if isNumber value then
        (name ∈ secondsNames → Fits value) ∧ ∀ other ∈ secondsKind name, other = kind
      else name = text "private" → kind = .response

/-- The value has been received, or it is not accepted and raises `Constraint_Error`. -/
def Receives (kind : CacheKind) (accepted : Prop) (result : Except Failure CacheData) : Prop :=
  accepted ∧ (∃ data, result = .ok data ∧ data.ckind = kind) ∨ ¬accepted ∧ result = constraintError

theorem isNumber_iff {value : Text} :
    isNumber value = true ↔ value ≠ [] ∧ ∀ digit ∈ value, 48 ≤ digit ∧ digit ≤ 57 := by
  simp only [isNumber, Bool.and_eq_true, decide_eq_true_eq, List.all_eq_true]

theorem integerValue_number {value : Text} (number : isNumber value = true) :
    integerValue value = some ((value.foldl Utils.decimalShift 0 : Nat) : Int) := by
  obtain ⟨nonempty, decimal⟩ := isNumber_iff.mp number
  have blank : Utils.Blank [] := List.forall_mem_nil _
  have read := Utils.integerValue_numeral ⟨value, nonempty, decimal⟩ blank blank
  rw [List.nil_append, List.append_nil, if_neg (by simp)] at read
  exact read

/-- Seconds are read from their number. -/
theorem deltaSecondsValue_eq {value : Text} (number : isNumber value = true) {seconds : DeltaSeconds}
    (value_eq : (value.foldl Utils.decimalShift 0 : Nat) = seconds.val) :
    deltaSecondsValue value = .ok seconds := by
  rw [deltaSecondsValue, integerValue_number number]
  dsimp only
  rw [dif_pos (value_eq ▸ seconds.property)]
  exact congrArg Except.ok (Subtype.ext value_eq)

theorem deltaSecondsValue_of_fits {value : Text} (number : isNumber value = true) (fits : Fits value) :
    ∃ seconds, deltaSecondsValue value = .ok seconds := by
  rw [Fits] at fits
  exact ⟨⟨(value.foldl Utils.decimalShift 0 : Nat), by omega, by omega⟩, deltaSecondsValue_eq number rfl⟩

theorem deltaSecondsValue_of_not_fits {value : Text} (number : isNumber value = true)
    (large : ¬Fits value) : deltaSecondsValue value = constraintError := by
  rw [Fits] at large
  rw [deltaSecondsValue, integerValue_number number]
  exact dif_neg (by omega)

theorem onRequest_receives (data : CacheData) (change : RequestPart → RequestPart) :
    Receives data.ckind (data.ckind = .request) (data.onRequest change) := by
  obtain ⟨_, _, _, _, part | part⟩ := data
  · exact .inl ⟨rfl, _, rfl, rfl⟩
  · exact .inr ⟨by rintro ⟨⟩, rfl⟩

theorem onResponse_receives (data : CacheData) (change : ResponsePart → ResponsePart) :
    Receives data.ckind (data.ckind = .response) (data.onResponse change) := by
  obtain ⟨_, _, _, _, part | part⟩ := data
  · exact .inr ⟨by rintro ⟨⟩, rfl⟩
  · exact .inl ⟨rfl, _, rfl, rfl⟩

theorem Receives.congr {kind : CacheKind} {accepted other : Prop} {result : Except Failure CacheData}
    (receives : Receives kind accepted result) (same : accepted ↔ other) :
    Receives kind other result := by
  rw [Receives, ← same]
  exact receives

theorem kinds_none {belongs : Option CacheKind} (none : belongs = none) (kind : CacheKind) :
    ∀ other ∈ belongs, other = kind := by
  intro other among
  rw [none] at among
  cases among

theorem kinds_some {belongs : Option CacheKind} {other : CacheKind} (some : belongs = some other)
    (kind : CacheKind) : kind = other ↔ ∀ other ∈ belongs, other = kind := by
  rw [some]
  simp only [Option.mem_def, Option.some.injEq, forall_eq']
  exact eq_comm

theorem simpleValue_receives (item : Text) (data : CacheData) :
    Receives data.ckind (∀ other ∈ simpleKind item, other = data.ckind) (simpleValue item data) := by
  rw [simpleValue]
  split_ifs with h₁ h₂ h₃ h₄ h₅ h₆ h₇ h₈
  · exact .inl ⟨kinds_none (h₁ ▸ by decide +kernel) _, _, rfl, rfl⟩
  · exact .inl ⟨kinds_none (h₂ ▸ by decide +kernel) _, _, rfl, rfl⟩
  · exact .inl ⟨kinds_none (h₃ ▸ by decide +kernel) _, _, rfl, rfl⟩
  · exact (onRequest_receives data _).congr (kinds_some (h₄ ▸ by decide +kernel) _)
  · exact (onResponse_receives data _).congr (kinds_some (h₅ ▸ by decide +kernel) _)
  · exact (onResponse_receives data _).congr (kinds_some (h₆ ▸ by decide +kernel) _)
  · exact (onResponse_receives data _).congr (kinds_some (h₇ ▸ by decide +kernel) _)
  · exact (onResponse_receives data _).congr (kinds_some (h₈ ▸ by decide +kernel) _)
  · refine .inl ⟨kinds_none ?_ _, _, rfl, rfl⟩
    rw [simpleKind, if_neg h₄, if_neg]
    simp only [List.mem_cons, List.not_mem_nil, not_or, or_false]
    exact ⟨h₅, h₆, h₇, h₈⟩

/-- Seconds are received by a component of one kind of data, or of both. -/
theorem seconds_receives {value : Text} (number : isNumber value = true) {kind : CacheKind}
    {accepted : Prop} {change : DeltaSeconds → Except Failure CacheData}
    (receives : ∀ seconds, Receives kind accepted (change seconds)) :
    Receives kind (Fits value ∧ accepted) (deltaSecondsValue value >>= change) := by
  by_cases fits : Fits value
  · obtain ⟨seconds, read⟩ := deltaSecondsValue_of_fits number fits
    rw [read, Http2.ok_bind]
    exact (receives seconds).congr (and_iff_right fits).symm
  · rw [deltaSecondsValue_of_not_fits number fits]
    exact .inr ⟨fun both => fits both.1, rfl⟩

theorem namedValue_receives (name value : Text) (data : CacheData) :
    Receives data.ckind (Accepts data.ckind ⟨some name, value⟩) (namedValue name value data) := by
  rw [Accepts, namedValue]
  by_cases number : isNumber value = true
  · rw [if_pos number, if_pos number]
    have own : ∀ {other : CacheKind}, name ∈ secondsNames → secondsKind name = some other →
        (Fits value ∧ data.ckind = other ↔
          (name ∈ secondsNames → Fits value) ∧ ∀ other ∈ secondsKind name, other = data.ckind) := by
      intro other among kind
      rw [← kinds_some kind, forall_prop_of_true among]
    split_ifs with h₁ h₂ h₃ h₄
    · exact (seconds_receives number fun seconds => onRequest_receives data _).congr
        (own (h₁ ▸ by decide +kernel) (h₁ ▸ by decide +kernel))
    · exact (seconds_receives number fun seconds => onRequest_receives data _).congr
        (own (h₂ ▸ by decide +kernel) (h₂ ▸ by decide +kernel))
    · have both : ∀ seconds : DeltaSeconds,
          Receives data.ckind True (.ok { data with maxAge := seconds }) := fun seconds =>
        .inl ⟨trivial, _, rfl, rfl⟩
      have among : name ∈ secondsNames := h₃ ▸ by decide +kernel
      have no_kind : secondsKind name = none := h₃ ▸ by decide +kernel
      refine (seconds_receives number both).congr ?_
      rw [forall_prop_of_true among, and_iff_left trivial, and_iff_left (kinds_none no_kind _)]
    · exact (seconds_receives number fun seconds => onResponse_receives data _).congr
        (own (h₄ ▸ by decide +kernel) (h₄ ▸ by decide +kernel))
    · refine .inl ⟨⟨fun among => absurd among ?_, kinds_none ?_ _⟩, _, rfl, rfl⟩
      · simp only [secondsNames, List.mem_cons, List.not_mem_nil, not_or, or_false]
        exact ⟨h₁, h₂, h₃, h₄⟩
      · rw [secondsKind, if_neg, if_neg h₄]
        simp only [List.mem_cons, List.not_mem_nil, not_or, or_false]
        exact ⟨h₁, h₂⟩
  · rw [if_neg number, if_neg number]
    split_ifs with own
    · exact (onResponse_receives data _).congr ⟨fun kind _ => kind, fun kind => kind own⟩
    · exact .inl ⟨fun same => absurd same own, _, rfl, rfl⟩

theorem receive_receives (element : Data) (data : CacheData) :
    Receives data.ckind (Accepts data.ckind element) (receive element data) := by
  obtain ⟨_ | name, value⟩ := element
  · exact simpleValue_receives value data
  · exact namedValue_receives name value data

/-- The values are received one after another. -/
theorem foldlM_receives (elements : List Data) (data : CacheData) :
    Receives data.ckind (∀ element ∈ elements, Accepts data.ckind element)
      (elements.foldlM (fun data element => receive element data) data) := by
  induction elements generalizing data with
  | nil => exact .inl ⟨List.forall_mem_nil _, data, rfl, rfl⟩
  | cons element elements ih =>
      rw [List.foldlM_cons, List.forall_mem_cons]
      obtain ⟨accepted, next, received, same⟩ | ⟨refused, received⟩ := receive_receives element data
      · rw [received, Http2.ok_bind, and_iff_right accepted, ← same]
        exact ih next
      · rw [received]
        exact .inr ⟨fun both => refused both.1, rfl⟩

/-- `To_Cache_Data` raises nothing but `Format_Error` exactly when the values are accepted that are found
in front of it. -/
theorem toCacheData_raises_iff (kind : CacheKind) (value : Text) :
    OnlyFormatError value (toCacheData kind value) ↔ ∀ element ∈ values value, Accepts kind element := by
  have start : (CacheData.initial kind).ckind = kind := by cases kind <;> rfl
  have receives := foldlM_receives (values value) (.initial kind)
  rw [start] at receives
  rw [toCacheData, parseRaising_eq]
  obtain ⟨accepted, data, received, -⟩ | ⟨refused, received⟩ := receives
  · rw [received, Http2.ok_bind]
    refine iff_of_true ?_ accepted
    intro failure failed
    cases found : split value with
    | ok elements =>
        rw [found] at failed
        cases failed
    | error other =>
        rw [found] at failed
        cases failed
        exact onlyFormatError_split value _ found
  · rw [received]
    refine iff_of_false ?_ refused
    intro only
    have same := only _ rfl
    cases same

end Messages
end AdaWebServer
