import AdaWebServer.Messages.CacheControl
import AdaWebServer.Utils.Images

/-!
# Round trip of cache data

The directives that are written are read one by one.  What a field of private data reads as depends on
the delimiters and quotes in it.
-/

namespace AdaWebServer
namespace Messages

open Http2 (Octet Text text image naturalLast)
open Containers
open Containers.HeaderValues

/-! ## Directives -/

/-- A directive, with or without a value. -/
inductive Directive where
  | flag (name : Text)
  | valued (name value : Text)

namespace Directive

/-- The directive as it is written. -/
def written : Directive → Text
  | flag name => name
  | valued name value => name ++ 61 :: value

/-- What is to be read. -/
def data : Directive → Data
  | flag name => ⟨none, name⟩
  | valued name value => ⟨some name, value⟩

/-- The name of a directive is a token. -/
def IsToken (name : Text) : Prop := name ≠ [] ∧ ∀ octet ∈ name, octet ∉ valueDelimiters

instance (name : Text) : Decidable (IsToken name) := inferInstanceAs (Decidable (_ ∧ _))

/-- A value is read as it is written: it has no delimiters, and no quote at its beginning but alone at the
end of the line. -/
def Legible (value : Text) (ends : Bool) : Prop :=
  value ≠ [] ∧ (∀ octet ∈ value, octet ∉ entryDelimiters) ∧
    (value.head? ≠ some 34 ∨ value.length = 1 ∧ ends = true)

instance (value : Text) (ends : Bool) : Decidable (Legible value ends) :=
  inferInstanceAs (Decidable (_ ∧ _))

/-- A directive is read as it is written, at the end of the line or in front of another one. -/
def Reads (ends : Bool) : Directive → Prop
  | flag name => IsToken name
  | valued name value => IsToken name ∧ Legible value ends

end Directive

/-- The text of directives, each with a separator behind it. -/
def ahead (directives : List Directive) : Text :=
  directives.flatMap fun directive => directive.written ++ [44, 32]

/-- The text of directives, each with a separator in front of it. -/
def behind (directives : List Directive) : Text :=
  directives.flatMap fun directive => 44 :: 32 :: directive.written

/-! ## Reading directives -/

variable {data : Text} {first : Nat}

theorem stops_behind (directives : List Directive) : Stops (behind directives) := by
  cases directives with
  | nil =>
      rintro octet ⟨⟩
  | cons directive directives =>
      rintro octet ⟨⟩
      decide

theorem stops_separator (more : Text) : Stops (44 :: 32 :: more) := by
  rintro octet ⟨⟩
  decide

theorem nextValue_directive {directive : Directive} {ends : Bool} {rest : Text} (positive : 0 < first)
    (drop_eq : data.drop (first - 1) = directive.written ++ rest) (reads : directive.Reads ends)
    (stops : Stops rest) (nothing : ends = true → rest = []) :
    nextValue data first = some ⟨directive.data.name, directive.data.value,
      skipSpaces data (first + directive.written.length + 1)⟩ := by
  cases directive with
  | flag name => exact nextValue_unnamed positive drop_eq reads.2 stops
  | valued name value =>
      obtain ⟨token, nonempty, plain, no_quote⟩ := reads
      have drop_eq' : data.drop (first - 1) = name ++ 61 :: (value ++ rest) := by
        rw [drop_eq, Directive.written, List.append_assoc]
        rfl
      have length_eq : (Directive.valued name value).written.length = name.length + 1 + value.length := by
        rw [Directive.written, List.length_append, List.length_cons]
        omega
      rw [length_eq]
      have unquoted : (value ++ rest).head? ≠ some 34 ∨ value.length = 1 ∧ rest = [] := by
        rw [List.head?_append_of_ne_nil _ nonempty]
        exact no_quote.imp_right fun alone => ⟨alone.1, nothing alone.2⟩
      exact nextValue_plain positive token.1 drop_eq' token.2 plain unquoted stops

/-- A text begins with a character that is no delimiter. -/
def Begins (more : Text) : Prop := ∃ octet back, more = octet :: back ∧ octet ∉ entryDelimiters

theorem begins_token {name rest : Text} (token : Directive.IsToken name) : Begins (name ++ rest) := by
  obtain ⟨octet, back, rfl⟩ := List.exists_cons_of_ne_nil token.1
  exact ⟨octet, back ++ rest, rfl, fun inside =>
    token.2 octet List.mem_cons_self (List.mem_append_left (text "=") inside)⟩

theorem begins_written {directive : Directive} {ends : Bool} {more : Text}
    (reads : directive.Reads ends) :
    Begins (directive.written ++ more) := by
  cases directive with
  | flag name => exact begins_token reads
  | valued name value =>
      rw [Directive.written, List.append_assoc]
      exact begins_token reads.1

theorem begins_ahead {directives : List Directive} {more : Text}
    (reads : ∀ directive ∈ directives, directive.Reads false) (begins : Begins more) :
    Begins (ahead directives ++ more) := by
  cases directives with
  | nil => exact begins
  | cons next directives =>
      rw [ahead, List.flatMap_cons, List.append_assoc, List.append_assoc]
      exact begins_written (List.forall_mem_cons.mp reads).1

/-- What a line reads as from an index on. -/
structure Continues (data : Text) (first next : Nat) (elements : List Data) : Prop where
  toSet : toSet data first = (toSet data next).map (elements ++ ·)
  values : valuesFrom data first = elements ++ valuesFrom data next

theorem Continues.refl (data : Text) (first : Nat) : Continues data first first [] := by
  refine ⟨?_, rfl⟩
  cases HeaderValues.toSet data first <;> rfl

theorem Continues.cons {next later : Nat} {value : NextValue} {elements : List Data}
    (continues : Continues data next later elements) (anchored : Anchored data first)
    (next_eq : nextValue data first = some value) (first_eq : value.first = next) :
    Continues data first later (⟨value.name, value.value⟩ :: elements) where
  toSet := by
    rw [toSet_step anchored next_eq, first_eq, continues.toSet]
    cases HeaderValues.toSet data later <;> rfl
  values := by
    rw [valuesFrom_step anchored next_eq, first_eq, continues.values, List.cons_append]

/-- Behind a directive the separator is passed over. -/
theorem first_behind {directive : Directive} {more : Text} (positive : 0 < first)
    (drop_eq : data.drop (first - 1) = directive.written ++ 44 :: 32 :: more) (begins : Begins more) :
    skipSpaces data (first + directive.written.length + 1) = first + directive.written.length + 2 ∧
      data.drop (first + directive.written.length + 2 - 1) = more := by
  have behind_directive := drop_behind positive drop_eq
  have behind_separator : data.drop (first + directive.written.length + 1 - 1) = [32] ++ more :=
    drop_next (Nat.add_pos_left positive _) behind_directive
  obtain ⟨octet, back, more_eq, plain⟩ := begins
  have first_eq := skipSpaces_eq (Nat.succ_pos _) behind_separator (List.forall_mem_singleton.mpr (by decide)) (by
    rw [more_eq]
    rintro _ ⟨⟩
    exact fun inside => plain (List.mem_append_left _ inside))
  rw [if_neg (by rw [more_eq]; exact List.cons_ne_nil _ _)] at first_eq
  exact ⟨first_eq, drop_behind (Nat.succ_pos _) behind_separator⟩

/-- Directives are read up to what follows them. -/
theorem continues_ahead {directives : List Directive} {more : Text} (anchored : Anchored data first)
    (drop_eq : data.drop (first - 1) = ahead directives ++ more) (begins : Begins more)
    (reads : ∀ directive ∈ directives, directive.Reads false) :
    ∃ next, Anchored data next ∧ data.drop (next - 1) = more ∧
      Continues data first next (directives.map Directive.data) := by
  induction directives generalizing first with
  | nil => exact ⟨first, anchored, drop_eq, Continues.refl data first⟩
  | cons directive directives ih =>
      obtain ⟨reads_first, reads_later⟩ := List.forall_mem_cons.mp reads
      have positive := anchored.positive
      have split_eq : data.drop (first - 1) =
          directive.written ++ 44 :: 32 :: (ahead directives ++ more) := by
        rw [drop_eq, ahead, List.flatMap_cons, List.append_assoc, List.append_assoc]
        rfl
      have begins_later := begins_ahead reads_later begins
      obtain ⟨first_eq, drop_next_eq⟩ := first_behind positive split_eq begins_later
      obtain ⟨next, next_anchored, next_drop, continues⟩ :=
        ih (anchored.mono (by omega)) drop_next_eq reads_later
      have next_eq := nextValue_directive positive split_eq reads_first
        (stops_separator _) (by rintro ⟨⟩)
      exact ⟨next, next_anchored, next_drop, continues.cons anchored next_eq first_eq⟩

/-- The last directive is read up to the end. -/
theorem continues_last {directive : Directive} (anchored : Anchored data first)
    (drop_eq : data.drop (first - 1) = directive.written) (reads : directive.Reads true) :
    Continues data first 0 [directive.data] := by
  have positive := anchored.positive
  have split_eq : data.drop (first - 1) = directive.written ++ [] :=
    drop_eq.trans (List.append_nil _).symm
  have stops : Stops [] := by rintro octet ⟨⟩
  have next_eq := nextValue_directive positive split_eq reads stops (fun _ => rfl)
  have length_eq := congrArg List.length drop_eq
  rw [List.length_drop] at length_eq
  exact (Continues.refl data 0).cons anchored next_eq (skipSpaces_over (by omega))

/-! ## Written directives -/

/-- The directives are appended one after another. -/
def appended (directives : List Directive) (content : Text) : Text :=
  directives.foldl (fun content directive => appendWithSep content directive.written) content

theorem appended_append (first second : List Directive) (content : Text) :
    appended (first ++ second) content = appended second (appended first content) := List.foldl_append

theorem appended_of_ne_nil {content : Text} (nonempty : content ≠ []) (directives : List Directive) :
    appended directives content = content ++ behind directives := by
  induction directives generalizing content with
  | nil => exact (List.append_nil content).symm
  | cons directive directives ih =>
      have once : appendWithSep content directive.written = content ++ 44 :: 32 :: directive.written := by
        rw [appendWithSep, if_pos nonempty, List.append_assoc]
        rfl
      have longer : content ++ 44 :: 32 :: directive.written ≠ [] :=
        List.append_ne_nil_of_left_ne_nil nonempty _
      show appended directives (appendWithSep content directive.written) = _
      rw [once, ih longer, behind, behind, List.flatMap_cons, List.append_assoc]

/-- A separator stands between the directives. -/
theorem written_behind (first directive : Directive) (directives : List Directive) :
    first.written ++ behind (directives ++ [directive]) =
      ahead (first :: directives) ++ directive.written := by
  induction directives generalizing first with
  | nil =>
      rw [ahead, List.flatMap_singleton, behind, List.nil_append, List.flatMap_singleton,
        List.append_assoc]
      rfl
  | cons second directives ih =>
      rw [ahead, List.flatMap_cons, ← ahead, List.append_assoc, ← ih second, List.cons_append, behind,
        List.flatMap_cons, ← behind, List.append_assoc]
      rfl

theorem appended_split {directives : List Directive} {directive : Directive}
    (nonempty : ∀ directive ∈ directives, directive.written ≠ []) (some : directive.written ≠ [])
    (later : List Directive) :
    appended (directives ++ directive :: later) [] =
      ahead directives ++ (directive.written ++ behind later) := by
  have together : directives ++ directive :: later = (directives ++ [directive]) ++ later :=
    List.append_cons directives directive later
  rw [together, appended_append]
  have appended_first : appended (directives ++ [directive]) [] =
      ahead directives ++ directive.written := by
    cases directives with
    | nil => rfl
    | cons first directives =>
        rw [← written_behind]
        exact appended_of_ne_nil (nonempty first List.mem_cons_self) (directives ++ [directive])
  rw [appended_first, appended_of_ne_nil (List.append_ne_nil_of_right_ne_nil _ some), List.append_assoc]

/-- A directive under a condition. -/
def flagIf (condition : Bool) (name : Text) : List Directive :=
  if condition then [.flag name] else []

/-- A directive with seconds that are not `Unset`. -/
def secondsOf (name : Text) (seconds : DeltaSeconds) : List Directive :=
  if seconds ≠ unset then [.valued name (image seconds.val.toNat)] else []

/-- The directive for `Max_Stale`. -/
def maxStaleOf (seconds : DeltaSeconds) : List Directive :=
  if seconds = anyMaxStale then [.flag (text "max-stale")] else secondsOf (text "max-stale") seconds

/-- The directive for `Private_Field`. -/
def privateOf (field : Text) : List Directive :=
  if field ≠ privateUnset then
    if field = allPrivate then [.flag (text "private")] else [.valued (text "private") field]
  else []

/-- The directives that both kinds of data have. -/
def generalOf (data : CacheData) : List Directive :=
  flagIf data.noCache (text "no-cache") ++ (flagIf data.noStore (text "no-store") ++
    (flagIf data.noTransform (text "no-transform") ++ secondsOf (text "max-age") data.maxAge))

/-- The directives of a request. -/
def requestOf (part : RequestPart) : List Directive :=
  maxStaleOf part.maxStale ++ (secondsOf (text "min-fresh") part.minFresh ++
    flagIf part.onlyIfCached (text "only-if-cached"))

/-- The directives of a response in front of the private field. -/
def publicOf (part : ResponsePart) : List Directive :=
  secondsOf (text "s-maxage") part.sMaxAge ++ flagIf part.isPublic (text "public")

/-- The directives of a response behind the private field. -/
def revalidateOf (part : ResponsePart) : List Directive :=
  flagIf part.mustRevalidate (text "must-revalidate") ++
    flagIf part.proxyRevalidate (text "proxy-revalidate")

/-- The directives of some data. -/
def directivesOf (data : CacheData) : List Directive :=
  generalOf data ++
    match data.variant with
    | .request part => requestOf part
    | .response part => publicOf part ++ (privateOf part.privateField ++ revalidateOf part)

theorem appended_flagIf (condition : Bool) (name content : Text) :
    appended (flagIf condition name) content = appendIf condition name content := by
  cases condition <;> rfl

theorem appended_secondsOf (name : Text) (seconds : DeltaSeconds) (content : Text) :
    appended (secondsOf name seconds) content = appendSeconds name seconds content := by
  rw [secondsOf, appendSeconds]
  split_ifs
  · rw [List.append_assoc]
    rfl
  · rfl

theorem appended_maxStaleOf (seconds : DeltaSeconds) (content : Text) :
    appended (maxStaleOf seconds) content = appendMaxStale seconds content := by
  rw [maxStaleOf, appendMaxStale, ← appended_secondsOf]
  split_ifs <;> rfl

theorem appended_privateOf (field content : Text) :
    appended (privateOf field) content = appendPrivate field content := by
  rw [privateOf, appendPrivate]
  split_ifs <;> rfl

theorem toCacheOption_eq (data : CacheData) : toCacheOption data = appended (directivesOf data) [] := by
  obtain ⟨_, _, _, _, part | part⟩ := data <;>
    simp only [toCacheOption, directivesOf, generalOf, requestOf, publicOf, revalidateOf,
      appended_append, appended_flagIf, appended_secondsOf, appended_maxStaleOf, appended_privateOf]

/-! ## Receiving the directives -/

/-- The values are received in order. -/
def receiveAll (elements : List Data) (data : CacheData) : Except Failure CacheData :=
  elements.foldlM (fun data element => receive element data) data

/-- The directives are received in order. -/
def receiveDirectives (directives : List Directive) (data : CacheData) : Except Failure CacheData :=
  receiveAll (directives.map Directive.data) data

theorem receiveDirectives_append (first second : List Directive) (data : CacheData) :
    receiveDirectives (first ++ second) data =
      receiveDirectives first data >>= receiveDirectives second := by
  rw [receiveDirectives, List.map_append, receiveAll, List.foldlM_append]
  rfl

theorem receiveDirectives_single (directive : Directive) (data : CacheData) :
    receiveDirectives [directive] data = receive directive.data data := by
  show (receive directive.data data >>= pure) = _
  cases receive directive.data data <;> rfl

/-- A directive under a condition sets what it sets. -/
theorem receive_flagIf {name : Text} {data : CacheData} {change : Bool → CacheData}
    (sets : simpleValue name data = .ok (change true)) (same : data = change false) (condition : Bool) :
    receiveDirectives (flagIf condition name) data = .ok (change condition) := by
  cases condition with
  | false => exact congrArg Except.ok same
  | true => exact (receiveDirectives_single _ _).trans sets

theorem isNumber_image (number : Nat) : isNumber (image number) = true := by
  refine isNumber_iff.mpr ⟨?_, fun digit among => ?_⟩
  · rw [Utils.image_eq_map]
    exact fun none => Nat.toDigits_ne_nil (List.map_eq_nil_iff.mp none)
  · have range := Utils.mem_image among
    exact ⟨UInt8.le_iff_toNat_le.mpr range.1, UInt8.le_iff_toNat_le.mpr range.2⟩

theorem deltaSecondsValue_image {seconds : DeltaSeconds} (set : seconds ≠ unset) :
    deltaSecondsValue (image seconds.val.toNat) = .ok seconds := by
  have read := Utils.foldl_image seconds.val.toNat
  have shifts : (fun value octet => 10 * value + (octet.toNat - 48)) = Utils.decimalShift := by
    funext value octet
    rw [Utils.decimalShift, Nat.mul_comm]
  rw [shifts] at read
  refine deltaSecondsValue_eq (isNumber_image _) ?_
  have other : seconds.val ≠ -1 := fun same => set (Subtype.ext same)
  have lower := seconds.property.1
  rw [read]
  omega

/-- A directive with seconds sets what it sets. -/
theorem receive_secondsOf {name : Text} {data : CacheData} {change : DeltaSeconds → CacheData}
    (sets : ∀ value, isNumber value = true →
      namedValue name value data = deltaSecondsValue value >>= fun seconds => .ok (change seconds))
    (same : data = change unset) (seconds : DeltaSeconds) :
    receiveDirectives (secondsOf name seconds) data = .ok (change seconds) := by
  rw [secondsOf]
  split_ifs with set
  · rw [receiveDirectives_single]
    refine (sets _ (isNumber_image _)).trans ?_
    rw [deltaSecondsValue_image set]
    rfl
  · rw [not_not.mp set]
    exact congrArg Except.ok same

theorem namedValue_maxStale {value : Text} (number : isNumber value = true) (data : CacheData) :
    namedValue (text "max-stale") value data = deltaSecondsValue value >>= fun seconds =>
      data.onRequest fun part => { part with maxStale := seconds } := by
  rw [namedValue, if_pos number, if_pos rfl]

theorem namedValue_minFresh {value : Text} (number : isNumber value = true) (data : CacheData) :
    namedValue (text "min-fresh") value data = deltaSecondsValue value >>= fun seconds =>
      data.onRequest fun part => { part with minFresh := seconds } := by
  rw [namedValue, if_pos number, if_neg (by decide), if_pos rfl]

theorem namedValue_maxAge {value : Text} (number : isNumber value = true) (data : CacheData) :
    namedValue (text "max-age") value data = deltaSecondsValue value >>= fun seconds =>
      .ok { data with maxAge := seconds } := by
  rw [namedValue, if_pos number, if_neg (by decide), if_neg (by decide), if_pos rfl]

theorem namedValue_sMaxAge {value : Text} (number : isNumber value = true) (data : CacheData) :
    namedValue (text "s-maxage") value data = deltaSecondsValue value >>= fun seconds =>
      data.onResponse fun part => { part with sMaxAge := seconds } := by
  rw [namedValue, if_pos number, if_neg (by decide), if_neg (by decide),
    if_neg (by decide), if_pos rfl]

theorem receive_generalOf (data : CacheData) (variant : Variant) :
    receiveDirectives (generalOf data) { variant } = .ok { data with variant } := by
  obtain ⟨noCache, noStore, noTransform, maxAge, _⟩ := data
  have noCache_set := @receive_flagIf (text "no-cache") { variant }
    (fun noCache => { noCache, variant }) rfl rfl noCache
  have noStore_set := @receive_flagIf (text "no-store") { noCache, variant }
    (fun noStore => { noCache, noStore, variant }) rfl rfl noStore
  have noTransform_set := @receive_flagIf (text "no-transform") { noCache, noStore, variant }
    (fun noTransform => { noCache, noStore, noTransform, variant }) rfl rfl noTransform
  have maxAge_set := @receive_secondsOf (text "max-age") { noCache, noStore, noTransform, variant }
    (fun maxAge => { noCache, noStore, noTransform, maxAge, variant })
    (fun value number => namedValue_maxAge number _) rfl maxAge
  rw [generalOf, receiveDirectives_append, noCache_set, Http2.ok_bind, receiveDirectives_append,
    noStore_set, Http2.ok_bind, receiveDirectives_append, noTransform_set, Http2.ok_bind, maxAge_set]

/-- What a request is received as: the directive without a value for any stale response is not. -/
def requestRead (part : RequestPart) : RequestPart :=
  if part.maxStale = anyMaxStale then { part with maxStale := unset } else part

theorem receive_requestOf (part : RequestPart) (data : CacheData) :
    receiveDirectives (requestOf part) { data with variant := .request {} } =
      .ok { data with variant := .request (requestRead part) } := by
  obtain ⟨maxStale, minFresh, onlyIfCached⟩ := part
  have later : ∀ maxStale : DeltaSeconds,
      receiveDirectives (secondsOf (text "min-fresh") minFresh ++
          flagIf onlyIfCached (text "only-if-cached")) { data with variant := .request { maxStale } } =
        .ok { data with variant := .request { maxStale, minFresh, onlyIfCached } } := by
    intro maxStale
    have minFresh_set := @receive_secondsOf (text "min-fresh")
      { data with variant := .request { maxStale } }
      (fun minFresh => { data with variant := .request { maxStale, minFresh } })
      (fun value number => namedValue_minFresh number _) rfl minFresh
    have onlyIfCached_set := @receive_flagIf (text "only-if-cached")
      { data with variant := .request { maxStale, minFresh } }
      (fun onlyIfCached => { data with variant := .request { maxStale, minFresh, onlyIfCached } })
      rfl rfl onlyIfCached
    rw [receiveDirectives_append, minFresh_set, Http2.ok_bind, onlyIfCached_set]
  rw [requestOf, receiveDirectives_append, maxStaleOf, requestRead]
  dsimp only
  split_ifs with any
  · rw [receiveDirectives_single]
    exact later unset
  · have maxStale_set := @receive_secondsOf (text "max-stale")
      { data with variant := .request {} }
      (fun maxStale => { data with variant := .request { maxStale } })
      (fun value number => namedValue_maxStale number _) rfl maxStale
    rw [maxStale_set]
    exact later maxStale

/-- What a private field is received as where it can be read: one that is a number is not received. -/
def fieldRead (field : Text) : Text := if isNumber field then privateUnset else field

/-- What a response is received as. -/
def responseRead (part : ResponsePart) : ResponsePart :=
  { part with privateField := fieldRead part.privateField }

theorem receive_privateOf (data : CacheData) (sMaxAge : DeltaSeconds) (isPublic : Bool) (field : Text) :
    receiveDirectives (privateOf field) { data with variant := .response { sMaxAge, isPublic } } =
      .ok { data with variant := .response ⟨sMaxAge, isPublic, fieldRead field, false, false⟩ } := by
  rw [privateOf, fieldRead]
  split_ifs with set all number number number'
  · rw [all] at number
    exact absurd number (by decide +kernel)
  · rw [receiveDirectives_single, all]
    rfl
  · rw [receiveDirectives_single]
    refine (if_pos number).trans ?_
    rw [if_neg (by decide), if_neg (by decide), if_neg (by decide),
      if_neg (by decide)]
  · rw [receiveDirectives_single]
    exact (if_neg number).trans (if_pos rfl)
  · rfl
  · rw [not_not.mp set]
    rfl

theorem receive_responseOf (part : ResponsePart) (data : CacheData) :
    receiveDirectives (publicOf part ++ (privateOf part.privateField ++ revalidateOf part))
        { data with variant := .response {} } =
      .ok { data with variant := .response (responseRead part) } := by
  obtain ⟨sMaxAge, isPublic, field, mustRevalidate, proxyRevalidate⟩ := part
  have sMaxAge_set := @receive_secondsOf (text "s-maxage") { data with variant := .response {} }
    (fun sMaxAge => { data with variant := .response { sMaxAge } })
    (fun value number => namedValue_sMaxAge number _) rfl sMaxAge
  have public_set := @receive_flagIf (text "public") { data with variant := .response { sMaxAge } }
    (fun isPublic => { data with variant := .response { sMaxAge, isPublic } }) rfl rfl isPublic
  have private_set := receive_privateOf data sMaxAge isPublic field
  rw [publicOf, revalidateOf, List.append_assoc, receiveDirectives_append, sMaxAge_set, Http2.ok_bind,
    receiveDirectives_append, public_set, Http2.ok_bind, receiveDirectives_append, private_set,
    Http2.ok_bind]
  have must_set := @receive_flagIf (text "must-revalidate")
    { data with variant := .response ⟨sMaxAge, isPublic, fieldRead field, false, false⟩ }
    (fun must => { data with variant := .response ⟨sMaxAge, isPublic, fieldRead field, must, false⟩ })
    rfl rfl mustRevalidate
  have proxy_set := @receive_flagIf (text "proxy-revalidate")
    { data with variant := .response ⟨sMaxAge, isPublic, fieldRead field, mustRevalidate, false⟩ }
    (fun proxy =>
      { data with variant := .response ⟨sMaxAge, isPublic, fieldRead field, mustRevalidate, proxy⟩ })
    rfl rfl proxyRevalidate
  rw [receiveDirectives_append, must_set, Http2.ok_bind, proxy_set]
  rfl

/-! ## Options that are read as they are written -/

theorem anchored_begins {more : Text} (begins : Begins more) :
    firstIndex more = 1 ∧ Anchored more 1 := by
  obtain ⟨octet, back, rfl, plain⟩ := begins
  have drop_eq : (octet :: back).drop (1 - 1) = [] ++ octet :: back := rfl
  have first_eq : firstIndex (octet :: back) = 1 :=
    indexFrom_eq drop_eq (List.forall_mem_nil _) (decide_eq_true plain)
  have anchored := (start_firstIndex (octet :: back)).resolve_left (by omega)
  rw [first_eq] at anchored
  exact ⟨first_eq, anchored⟩

theorem written_ne_nil {directive : Directive} {ends : Bool} (reads : directive.Reads ends) :
    directive.written ≠ [] := by
  cases directive with
  | flag name => exact reads.1
  | valued name value => exact List.append_ne_nil_of_left_ne_nil reads.1.1 _

/-- All directives are read as they are written. -/
def Readable (directives : List Directive) : Prop :=
  ∀ front last, directives = front ++ [last] →
    (∀ directive ∈ front, directive.Reads false) ∧ last.Reads true

theorem reads_of_false {directive : Directive} (reads : directive.Reads false) (ends : Bool) :
    directive.Reads ends := by
  cases directive with
  | flag name => exact reads
  | valued name value =>
      obtain ⟨token, nonempty, plain, no_quote⟩ := reads
      exact ⟨token, nonempty, plain, .inl (no_quote.resolve_right fun alone => by cases alone.2)⟩

theorem readable_of_forall {directives : List Directive}
    (reads : ∀ directive ∈ directives, directive.Reads false) : Readable directives := by
  rintro front last rfl
  exact ⟨fun directive among => reads directive (List.mem_append_left _ among),
    reads_of_false (reads last (List.mem_append_right _ List.mem_cons_self)) true⟩

theorem readable_concat {directives : List Directive} {directive : Directive}
    (reads : ∀ directive ∈ directives, directive.Reads false) (last : directive.Reads true) :
    Readable (directives ++ [directive]) := by
  intro front other same
  obtain ⟨rfl, other_eq⟩ := List.append_inj' same rfl
  obtain rfl := List.singleton_inj.mp other_eq
  exact ⟨reads, last⟩

/-- Readable directives are received one after another. -/
theorem toCacheData_readable {directives : List Directive} (readable : Readable directives)
    (kind : CacheKind) :
    toCacheData kind (appended directives []) = receiveDirectives directives (.initial kind) := by
  obtain rfl | ⟨front, last, rfl⟩ := directives.eq_nil_or_concat
  · have nothing : firstIndex [] = 0 := rfl
    rw [toCacheData, parseRaising_eq, values, split]
    show (List.foldlM _ _ (valuesFrom [] 0) >>= fun result => (HeaderValues.toSet [] 0).map _) = _
    rw [valuesFrom_zero, toSet_zero]
    rfl
  · rw [List.concat_eq_append] at readable ⊢
    obtain ⟨reads, reads_last⟩ := readable front last rfl
    have option_eq := appended_split (fun directive among => written_ne_nil (reads directive among))
      (written_ne_nil reads_last) []
    have ends : behind [] = [] := rfl
    rw [ends, List.append_nil] at option_eq
    have begins_last : Begins (last.written ++ []) := begins_written reads_last
    rw [List.append_nil] at begins_last
    obtain ⟨first_eq, anchored⟩ := anchored_begins (begins_ahead reads begins_last)
    rw [option_eq, toCacheData, parseRaising_eq, values, split, first_eq]
    obtain ⟨next, next_anchored, next_drop, continues⟩ :=
      continues_ahead anchored rfl begins_last reads
    have at_last := continues_last next_anchored next_drop reads_last
    rw [continues.values, at_last.values, valuesFrom_zero, continues.toSet, at_last.toSet, toSet_zero,
      List.append_nil, receiveDirectives, receiveAll, List.map_append, List.map_singleton]
    cases List.foldlM (fun data element => receive element data) (CacheData.initial kind)
      (front.map Directive.data ++ [last.data]) <;> rfl

theorem reads_image {name : Text} (token : Directive.IsToken name) (number : Nat) :
    Directive.Reads false (.valued name (image number)) := by
  have range := fun octet => @Utils.mem_image number octet
  refine ⟨token, (isNumber_iff.mp (isNumber_image number)).1, fun octet among inside => ?_,
    .inl fun head => ?_⟩
  · have digit := range octet among
    have delimiter : ∀ octet ∈ entryDelimiters, octet.toNat < 48 ∨ 57 < octet.toNat := by
      decide +kernel
    have outside := delimiter octet inside
    omega
  · have digit := range 34 (List.mem_of_mem_head? head)
    exact absurd digit.1 (by decide)

theorem reads_flagIf {name : Text} (token : Directive.IsToken name) (condition : Bool) :
    ∀ directive ∈ flagIf condition name, directive.Reads false := by
  intro directive among
  rw [flagIf] at among
  split_ifs at among
  · rw [List.mem_singleton.mp among]
    exact token
  · cases among

theorem reads_secondsOf {name : Text} (token : Directive.IsToken name) (seconds : DeltaSeconds) :
    ∀ directive ∈ secondsOf name seconds, directive.Reads false := by
  intro directive among
  rw [secondsOf] at among
  split_ifs at among
  · rw [List.mem_singleton.mp among]
    exact reads_image token _
  · cases among

/-- The names of the directives. -/
def names : List Text :=
  [text "no-cache", text "no-store", text "no-transform", text "max-age", text "max-stale",
    text "min-fresh", text "only-if-cached", text "s-maxage", text "public", text "must-revalidate",
    text "proxy-revalidate", text "private"]

theorem isToken_name (place : Fin 12) : Directive.IsToken (names.get place) := by
  have tokens : names.all (fun name => name ≠ [] ∧
      name.all (fun octet => octet ∉ valueDelimiters) = true) = true := by
    decide +kernel
  have token := of_decide_eq_true (List.all_eq_true.mp tokens _ (List.get_mem names place))
  exact ⟨token.1, fun octet among => of_decide_eq_true (List.all_eq_true.mp token.2 octet among)⟩

theorem reads_generalOf (data : CacheData) : ∀ directive ∈ generalOf data, directive.Reads false := by
  simp only [generalOf, List.mem_append, or_imp, forall_and]
  exact ⟨reads_flagIf (isToken_name 0) _, reads_flagIf (isToken_name 1) _,
    reads_flagIf (isToken_name 2) _, reads_secondsOf (isToken_name 3) _⟩

theorem reads_requestOf (part : RequestPart) :
    ∀ directive ∈ requestOf part, directive.Reads false := by
  simp only [requestOf, maxStaleOf, List.mem_append, or_imp, forall_and]
  refine ⟨?_, reads_secondsOf (isToken_name 5) _, reads_flagIf (isToken_name 6) _⟩
  split_ifs
  · exact reads_flagIf (isToken_name 4) true
  · exact reads_secondsOf (isToken_name 4) _

theorem reads_publicOf (part : ResponsePart) :
    ∀ directive ∈ publicOf part, directive.Reads false := by
  simp only [publicOf, List.mem_append, or_imp, forall_and]
  exact ⟨reads_secondsOf (isToken_name 7) _, reads_flagIf (isToken_name 8) _⟩

theorem reads_revalidateOf (part : ResponsePart) :
    ∀ directive ∈ revalidateOf part, directive.Reads false := by
  simp only [revalidateOf, List.mem_append, or_imp, forall_and]
  exact ⟨reads_flagIf (isToken_name 9) _, reads_flagIf (isToken_name 10) _⟩

/-- A request is read back but for any stale response. -/
theorem toCacheData_request (data : CacheData) (part : RequestPart)
    (variant : data.variant = .request part) :
    toCacheData data.ckind (toCacheOption data) =
      .ok { data with variant := .request (requestRead part) } := by
  have directives_eq : directivesOf data = generalOf data ++ requestOf part := by
    rw [directivesOf, variant]
  have readable : Readable (generalOf data ++ requestOf part) := by
    refine readable_of_forall fun directive among => ?_
    exact (List.mem_append.mp among).elim (reads_generalOf data directive)
      (reads_requestOf part directive)
  have kind : data.ckind = .request := by rw [CacheData.ckind, variant]
  have general := receive_generalOf data (.request {})
  rw [kind, toCacheOption_eq, directives_eq, toCacheData_readable readable, receiveDirectives_append]
  show (receiveDirectives (generalOf data) { variant := .request {} } >>= _) = _
  rw [general, Http2.ok_bind, receive_requestOf]

/-- The private field can be read behind what is written in front of it. -/
def FieldReads (part : ResponsePart) : Prop :=
  part.privateField = privateUnset ∨ part.privateField = allPrivate ∨
    Directive.Legible part.privateField (!part.mustRevalidate && !part.proxyRevalidate)

theorem isToken_private : Directive.IsToken (text "private") := isToken_name 11

theorem readable_response (data : CacheData) {part : ResponsePart} (reads : FieldReads part) :
    Readable ((generalOf data ++ publicOf part) ++ (privateOf part.privateField ++ revalidateOf part)) := by
  have front : ∀ directive ∈ generalOf data ++ publicOf part, directive.Reads false := fun _ among =>
    (List.mem_append.mp among).elim (reads_generalOf data _) (reads_publicOf part _)
  have whole : (∀ directive ∈ privateOf part.privateField, directive.Reads false) →
      Readable ((generalOf data ++ publicOf part) ++
        (privateOf part.privateField ++ revalidateOf part)) := by
    intro middle
    refine readable_of_forall fun directive among => ?_
    obtain among | among := List.mem_append.mp among
    · exact front directive among
    · exact (List.mem_append.mp among).elim (middle directive) (reads_revalidateOf part directive)
  obtain no_field | all | ⟨nonempty, plain, no_quote | ⟨alone, ends⟩⟩ := reads
  · refine whole fun directive among => ?_
    rw [privateOf, if_neg (not_not.mpr no_field)] at among
    cases among
  · refine whole fun directive among => ?_
    rw [all] at among
    rw [List.mem_singleton.mp among]
    exact isToken_private
  · refine whole fun directive among => ?_
    rw [privateOf] at among
    split_ifs at among
    · rw [List.mem_singleton.mp among]
      exact isToken_private
    · rw [List.mem_singleton.mp among]
      exact ⟨isToken_private, nonempty, plain, .inl no_quote⟩
    · cases among
  · rw [Bool.and_eq_true, Bool.not_eq_true', Bool.not_eq_true'] at ends
    have last : revalidateOf part = [] := by
      rw [revalidateOf, ends.1, ends.2]
      rfl
    rw [last, List.append_nil, privateOf]
    split_ifs with set all
    · exact readable_concat front isToken_private
    · exact readable_concat front ⟨isToken_private, nonempty, plain, .inr ⟨alone, rfl⟩⟩
    · exact absurd (not_not.mp set) nonempty

theorem directivesOf_response {data : CacheData} {part : ResponsePart}
    (variant : data.variant = .response part) :
    directivesOf data = (generalOf data ++ publicOf part) ++
      (privateOf part.privateField ++ revalidateOf part) := by
  rw [directivesOf, variant, List.append_assoc]

/-- A response is read back but for a private field that is a number. -/
theorem toCacheData_response (data : CacheData) (part : ResponsePart)
    (variant : data.variant = .response part) (reads : FieldReads part) :
    toCacheData data.ckind (toCacheOption data) =
      .ok { data with variant := .response (responseRead part) } := by
  have kind : data.ckind = .response := by rw [CacheData.ckind, variant]
  have general := receive_generalOf data (.response {})
  rw [kind, toCacheOption_eq, directivesOf_response variant,
    toCacheData_readable (readable_response data reads), List.append_assoc, receiveDirectives_append]
  show (receiveDirectives (generalOf data) { variant := .response {} } >>= _) = _
  rw [general, Http2.ok_bind, receive_responseOf]

/-! ## Private fields that cannot be read -/

/-- An index that is found is not behind a character that passes the test. -/
theorem indexFrom_of_hit {test : Octet → Bool} {i : Nat} {octet : Octet} (positive : 0 < first)
    (le : first ≤ i) (found : data[i - 1]? = some octet) (hit : test octet = true) :
    indexFrom data first test ≠ 0 ∧ indexFrom data first test ≤ i := by
  have there : (data.drop (first - 1))[i - first]? = some octet := by
    rw [List.getElem?_drop, (by omega : first - 1 + (i - first) = i - 1), found]
  obtain misses | ⟨front, other, back, drop_eq, misses, other_hit⟩ :=
    indexFrom_cases data first test
  · rw [misses octet (List.mem_of_getElem? there)] at hit
    cases hit
  · rw [indexFrom_eq drop_eq misses other_hit]
    refine ⟨by omega, ?_⟩
    by_contra beyond
    rw [drop_eq, List.getElem?_append_left (by omega)] at there
    rw [misses octet (List.mem_of_getElem? there)] at hit
    cases hit

/-- What stands at an index that is found. -/
theorem hit_of_indexFrom {test : Octet → Bool} (positive : 0 < first)
    (found : indexFrom data first test ≠ 0) :
    ∃ octet, data[indexFrom data first test - 1]? = some octet ∧ test octet = true := by
  obtain misses | ⟨front, octet, back, drop_eq, misses, hit⟩ := indexFrom_cases data first test
  · exact absurd (indexFrom_zero misses) found
  · rw [indexFrom_eq drop_eq misses hit]
    exact ⟨octet, (at_index positive drop_eq).2, hit⟩

/-- A directive with a value stands in a line, and what follows has neither values nor quotes. -/
structure Stands (data : Text) (start : Nat) (name field rest : Text) : Prop where
  positive : 0 < start
  drop_eq : data.drop (start - 1) = name ++ 61 :: (field ++ rest)
  plain : ∀ octet ∈ name, octet ∉ valueDelimiters
  no_equals : 61 ∉ rest
  no_quote : 34 ∉ rest
  stops : Stops rest

namespace Stands

variable {start : Nat} {name field rest : Text}

theorem getElem?_eq (stands : Stands data start name field rest) {i : Nat} (le : start ≤ i) :
    data[i - 1]? = (name ++ 61 :: (field ++ rest))[i - start]? := by
  have positive := stands.positive
  rw [← stands.drop_eq, List.getElem?_drop, (by omega : start - 1 + (i - start) = i - 1)]

theorem length_eq (stands : Stands data start name field rest) :
    data.length = start + name.length + field.length + rest.length := by
  have positive := stands.positive
  have lengths := congrArg List.length stands.drop_eq
  simp only [List.length_drop, List.length_append, List.length_cons] at lengths
  omega

/-- The characters of the field. -/
theorem getElem?_field (stands : Stands data start name field rest) (offset : Nat)
    (inside : offset < field.length) : data[start + name.length + offset]? = field[offset]? := by
  have found := stands.getElem?_eq
    (by omega : start ≤ start + name.length + 1 + offset)
  rw [(by omega : start + name.length + 1 + offset - 1 = start + name.length + offset)] at found
  rw [found, (by omega : start + name.length + 1 + offset - start = name.length + (1 + offset)),
    List.getElem?_append_right (by omega), (by omega : name.length + (1 + offset) - name.length = offset + 1),
    List.getElem?_cons_succ, List.getElem?_append_left inside]

theorem getElem?_rest (stands : Stands data start name field rest) (offset : Nat) :
    data[start + name.length + field.length + offset]? = rest[offset]? := by
  have found := stands.getElem?_eq
    (by omega : start ≤ start + name.length + field.length + 1 + offset)
  rw [(by omega : start + name.length + field.length + 1 + offset - 1 =
    start + name.length + field.length + offset)] at found
  rw [found, (by omega : start + name.length + field.length + 1 + offset - start =
      name.length + (1 + (field.length + offset))),
    List.getElem?_append_right (by omega),
    (by omega : name.length + (1 + (field.length + offset)) - name.length = field.length + offset + 1),
    List.getElem?_cons_succ, List.getElem?_append_right (by omega), Nat.add_sub_cancel_left]

/-- A character that is not behind the field stands in front of what follows. -/
theorem le_of_notMem (stands : Stands data start name field rest) {i : Nat} {octet : Octet}
    (found : data[i - 1]? = some octet) (absent : octet ∉ rest) (positive : 0 < i) :
    i ≤ start + name.length + field.length := by
  by_contra beyond
  have behind_field := stands.getElem?_rest (i - 1 - (start + name.length + field.length))
  rw [(by omega : start + name.length + field.length + (i - 1 - (start + name.length + field.length)) = i - 1),
    found] at behind_field
  exact absent (List.mem_of_getElem? behind_field.symm)

theorem le_equals (stands : Stands data start name field rest) {i : Nat} (le : start ≤ i)
    (found : data[i - 1]? = some 61) : start + name.length ≤ i := by
  by_contra before
  rw [stands.getElem?_eq le, List.getElem?_append_left (by omega)] at found
  exact stands.plain 61 (List.mem_of_getElem? found) (by decide)

/-- The field cannot be read. -/
def Illegible (field rest : Text) : Prop :=
  (∃ octet ∈ field, octet ∈ entryDelimiters) ∨
    field.head? = some 34 ∧ (1 < field.length ∨ rest ≠ [])

/-- An illegible field that is taken for no quoted value has a delimiter. -/
theorem exists_delimiter (stands : Stands data start name field rest)
    (illegible : Illegible field rest)
    (unquoted : ¬ (start + name.length + 1 < data.length ∧ data[start + name.length]? = some 34)) :
    ∃ offset < field.length, ∃ octet ∈ entryDelimiters, field[offset]? = some octet := by
  obtain ⟨octet, among, delimiter⟩ | ⟨head, longer⟩ := illegible
  · obtain ⟨offset, inside, rfl⟩ := List.getElem_of_mem among
    exact ⟨offset, inside, field[offset], delimiter, List.getElem?_eq_getElem inside⟩
  · refine absurd ⟨?_, ?_⟩ unquoted
    · rw [stands.length_eq]
      obtain long | some_rest := longer
      · omega
      · have rest_long := List.length_pos_iff.mpr some_rest
        have field_long : 0 < field.length := by
          rw [List.length_pos_iff]
          rintro rfl
          cases head
        omega
    · have field_long : 0 < field.length := by
        rw [List.length_pos_iff]
        rintro rfl
        cases head
      have first := stands.getElem?_field 0 field_long
      rw [Nat.add_zero] at first
      rw [first, ← List.head?_eq_getElem?, head]

/-- The value ends in front of what follows the field. -/
theorem stop_le (stands : Stands data start name field rest) (positive : 0 < first)
    (le : first ≤ start + name.length + field.length + 1) :
    (if indexFrom data first (· ∈ entryDelimiters) = 0 then data.length
      else indexFrom data first (· ∈ entryDelimiters) - 1) ≤ start + name.length + field.length := by
  have length_eq := stands.length_eq
  cases rest_eq : rest with
  | nil =>
      rw [rest_eq, List.length_nil] at length_eq
      have within := @indexFrom_le data first (· ∈ entryDelimiters) positive
      split_ifs <;> omega
  | cons octet back =>
      have found := stands.getElem?_rest 0
      rw [rest_eq, Nat.add_zero] at found
      have delimiter : octet ∈ entryDelimiters := stands.stops octet (by rw [rest_eq]; rfl)
      obtain ⟨nonzero, index_le⟩ := @indexFrom_of_hit data first (· ∈ entryDelimiters)
        (start + name.length + field.length + 1) octet positive le found (decide_eq_true delimiter)
      rw [if_neg nonzero]
      omega

theorem length_slice_le (data : Text) (first last : Nat) :
    (slice data first last).length ≤ last - (first - 1) := by
  rw [slice, List.length_drop, List.length_take]
  omega

/-- Every value that is found from the directive on is shorter than the field. -/
theorem length_value_lt (stands : Stands data start name field rest) (illegible : Illegible field rest)
    {next : NextValue} (le : start ≤ first) (next_eq : nextValue data first = some next)
    (named : next.name ≠ none) : next.value.length < field.length := by
  have positive := stands.positive
  have field_long : 0 < field.length := by
    rw [List.length_pos_iff]
    rintro rfl
    obtain ⟨octet, among, -⟩ | ⟨head, -⟩ := illegible
    · cases among
    · cases head
  rw [nextValue] at next_eq
  dsimp only at next_eq
  generalize last_eq : indexFrom data first (fun octet => decide (octet ∈ valueDelimiters)) = last
    at next_eq
  by_cases nothing : last = 0
  · rw [if_pos nothing] at next_eq
    cases next_eq
    exact absurd rfl named
  have first_positive : 0 < first := Nat.lt_of_lt_of_le positive le
  have first_le : first ≤ last := last_eq ▸ indexFrom_ge (last_eq ▸ nothing)
  by_cases equals : data[last - 1]? = some 61
  · have equals_ge := stands.le_equals (Nat.le_trans le first_le) equals
    have equals_le := stands.le_of_notMem equals stands.no_equals (by omega)
    rw [if_neg nothing, if_pos equals] at next_eq
    by_cases quoted : last + 1 < data.length ∧ data[last + 1 - 1]? = some 34
    · rw [if_pos quoted] at next_eq
      by_cases missing : indexFrom data (last + 1 + 1) (fun octet => decide (octet = 34)) = 0
      · rw [if_pos missing] at next_eq
        cases next_eq
      · -- The closing quote stands in the field.
        rw [if_neg missing] at next_eq
        cases next_eq
        obtain ⟨octet, closing, is_quote⟩ :=
          hit_of_indexFrom (by omega : 0 < last + 1 + 1) missing
        rw [of_decide_eq_true is_quote] at closing
        have closing_le := stands.le_of_notMem closing stands.no_quote (Nat.pos_of_ne_zero missing)
        have closing_ge := indexFrom_ge missing
        refine Nat.lt_of_le_of_lt (length_slice_le _ _ _) ?_
        omega
    · rw [if_neg quoted] at next_eq
      have stop_le := stands.stop_le (by omega : 0 < last + 1) (by omega)
      have value_le : next.value.length ≤
          (if indexFrom data (last + 1) (· ∈ entryDelimiters) = 0 then data.length
            else indexFrom data (last + 1) (· ∈ entryDelimiters) - 1) - last := by
        split_ifs at next_eq ⊢ <;> cases next_eq <;> exact length_slice_le _ _ _
      by_cases behind : start + name.length < last
      · omega
      · -- It is the value of the directive, which a delimiter ends.
        obtain rfl : last = start + name.length := by omega
        rw [Nat.add_sub_cancel] at quoted
        obtain ⟨offset, inside, octet, delimiter, field_eq⟩ := stands.exists_delimiter illegible quoted
        have found := stands.getElem?_field offset inside
        rw [field_eq] at found
        obtain ⟨nonzero, index_le⟩ := @indexFrom_of_hit data (start + name.length + 1)
          (· ∈ entryDelimiters) (start + name.length + 1 + offset) octet (Nat.succ_pos _) (by omega)
          (by rw [← found]; congr 1; omega) (decide_eq_true delimiter)
        rw [if_neg nonzero] at value_le
        omega
  · rw [if_neg nothing, if_neg equals] at next_eq
    cases next_eq
    exact absurd rfl named

/-- The field is not among the values from the directive on. -/
theorem notMem_valuesFrom (stands : Stands data start name field rest)
    (illegible : Illegible field rest) (anchored : Anchored data start) (other : Text) :
    (⟨some other, field⟩ : Data) ∉ valuesFrom data start := by
  refine @line_induction data (fun first => first = 0 ∨ start ≤ first →
    (⟨some other, field⟩ : Data) ∉ valuesFrom data first) ?_ ?_ ?_ start (.inr anchored)
    (.inr (Nat.le_refl start))
  · intro _ among
    rw [valuesFrom_zero] at among
    cases among
  · intro first anchored next_eq _ among
    rw [valuesFrom_fails anchored next_eq] at among
    cases among
  · intro first next anchored next_eq ih from_start among
    have le := from_start.resolve_left (Nat.ne_of_gt anchored.positive)
    rw [valuesFrom_step anchored next_eq] at among
    obtain same | later := List.mem_cons.mp among
    · obtain ⟨name_eq, value_eq⟩ := Data.mk.inj same
      have shorter := stands.length_value_lt illegible le next_eq (by rw [← name_eq]; rintro ⟨⟩)
      rw [value_eq] at shorter
      exact Nat.lt_irrefl _ shorter
    · obtain ⟨bounds, bounds_eq, first_eq, -⟩ := sets_of_next anchored next_eq
      have moves := nextBounds_first anchored.positive bounds_eq
      rw [first_eq] at moves
      exact ih (moves.imp_right fun behind => Nat.le_trans le (Nat.le_of_lt behind.1)) later

end Stands

/-- Another private field has been received. -/
def Lacks (field : Text) (data : CacheData) : Prop :=
  ∀ part, data.variant = .response part → part.privateField ≠ field

theorem lacks_onRequest {field : Text} {data next : CacheData} {change : RequestPart → RequestPart}
    (received : data.onRequest change = .ok next) : Lacks field next := by
  obtain ⟨_, _, _, _, part | part⟩ := data
  · cases received
    rintro other ⟨⟩
  · cases received

theorem lacks_onResponse {field : Text} {data next : CacheData} {change : ResponsePart → ResponsePart}
    (received : data.onResponse change = .ok next)
    (other : ∀ part, data.variant = .response part → (change part).privateField ≠ field) :
    Lacks field next := by
  obtain ⟨_, _, _, _, part | part⟩ := data
  · cases received
  · cases received
    rintro _ ⟨⟩
    exact other part rfl

/-- A value that is not the field does not set it. -/
theorem lacks_receive {field : Text} {element : Data} {data next : CacheData} (lacks : Lacks field data)
    (all : field ≠ allPrivate) (other : element ≠ ⟨some (text "private"), field⟩)
    (received : receive element data = .ok next) : Lacks field next := by
  obtain ⟨_ | name, value⟩ := element
  · have received : simpleValue value data = .ok next := received
    rw [simpleValue] at received
    split_ifs at received
    · cases received
      exact lacks
    · cases received
      exact lacks
    · cases received
      exact lacks
    · exact lacks_onRequest received
    · exact lacks_onResponse received lacks
    · exact lacks_onResponse received fun _ _ => all.symm
    · exact lacks_onResponse received lacks
    · exact lacks_onResponse received lacks
    · cases received
      exact lacks
  · have received : namedValue name value data = .ok next := received
    rw [namedValue] at received
    split_ifs at received with number stale fresh age shared own
    · obtain ⟨seconds, -, set⟩ := Http2.bind_eq_ok_iff.mp received
      exact lacks_onRequest set
    · obtain ⟨seconds, -, set⟩ := Http2.bind_eq_ok_iff.mp received
      exact lacks_onRequest set
    · obtain ⟨seconds, -, set⟩ := Http2.bind_eq_ok_iff.mp received
      cases set
      exact lacks
    · obtain ⟨seconds, -, set⟩ := Http2.bind_eq_ok_iff.mp received
      exact lacks_onResponse set lacks
    · cases received
      exact lacks
    · refine lacks_onResponse received fun _ _ same => other ?_
      rw [own]
      exact congrArg (Data.mk (some (text "private"))) same
    · cases received
      exact lacks

theorem lacks_receiveAll {field : Text} {elements : List Data} {data next : CacheData}
    (lacks : Lacks field data) (all : field ≠ allPrivate)
    (others : (⟨some (text "private"), field⟩ : Data) ∉ elements)
    (received : receiveAll elements data = .ok next) : Lacks field next := by
  induction elements generalizing data with
  | nil =>
      cases received
      exact lacks
  | cons element elements ih =>
      rw [List.mem_cons, not_or] at others
      rw [receiveAll, List.foldlM_cons] at received
      obtain ⟨middle, first, later⟩ := Http2.bind_eq_ok_iff.mp received
      exact ih (lacks_receive lacks all (Ne.symm others.1) first) others.2 later

theorem notMem_flagIf (field : Text) (condition : Bool) (name : Text) :
    (⟨some (text "private"), field⟩ : Data) ∉ (flagIf condition name).map Directive.data := by
  rw [flagIf]
  split_ifs
  · rintro (_ | ⟨_, ⟨⟩⟩)
  · rintro ⟨⟩

theorem notMem_secondsOf (field : Text) {name : Text} (other : text "private" ≠ name)
    (seconds : DeltaSeconds) :
    (⟨some (text "private"), field⟩ : Data) ∉ (secondsOf name seconds).map Directive.data := by
  rw [secondsOf]
  split_ifs
  · intro among
    have same := List.mem_singleton.mp among
    exact other (Option.some.inj (Data.mk.inj same).1)
  · rintro ⟨⟩

/-- What is written in front of the private field sets no private field. -/
theorem notMem_front (data : CacheData) (part : ResponsePart) (field : Text) :
    (⟨some (text "private"), field⟩ : Data) ∉ (generalOf data ++ publicOf part).map Directive.data := by
  simp only [generalOf, publicOf, List.map_append, List.mem_append, not_or]
  exact ⟨⟨notMem_flagIf _ _ _, notMem_flagIf _ _ _, notMem_flagIf _ _ _,
    notMem_secondsOf _ (by decide +kernel) _⟩, notMem_secondsOf _ (by decide +kernel) _,
    notMem_flagIf _ _ _⟩

theorem notMem_behind (part : ResponsePart) :
    61 ∉ behind (revalidateOf part) ∧ 34 ∉ behind (revalidateOf part) := by
  have table : ∀ must proxy : Bool,
      61 ∉ behind (flagIf must (text "must-revalidate") ++ flagIf proxy (text "proxy-revalidate")) ∧
        34 ∉ behind (flagIf must (text "must-revalidate") ++ flagIf proxy (text "proxy-revalidate")) := by
    decide +kernel
  exact table _ _

theorem behind_ne_nil {part : ResponsePart}
    (ends : (!part.mustRevalidate && !part.proxyRevalidate) ≠ true) :
    behind (revalidateOf part) ≠ [] := by
  have table : ∀ must proxy : Bool, (!must && !proxy) ≠ true →
      behind (flagIf must (text "must-revalidate") ++ flagIf proxy (text "proxy-revalidate")) ≠ [] := by
    decide +kernel
  exact table _ _ ends

theorem illegible_of_not_legible {part : ResponsePart} (nonempty : part.privateField ≠ [])
    (illegible : ¬Directive.Legible part.privateField
      (!part.mustRevalidate && !part.proxyRevalidate)) :
    Stands.Illegible part.privateField (behind (revalidateOf part)) := by
  rw [Directive.Legible, and_iff_right nonempty, not_and_or, not_or, not_not, not_and_or] at illegible
  obtain delimiter | ⟨head, longer⟩ := illegible
  · simp only [not_forall, not_not, exists_prop] at delimiter
    exact .inl delimiter
  · refine .inr ⟨head, longer.imp (fun other => ?_) behind_ne_nil⟩
    have long := List.length_pos_iff.mpr nonempty
    omega

/-- A response is not read back when its private field cannot be read. -/
theorem toCacheData_illegible {data : CacheData} {part : ResponsePart}
    (variant : data.variant = .response part) (unread : ¬FieldReads part) :
    toCacheData data.ckind (toCacheOption data) ≠ .ok data := by
  simp only [FieldReads, not_or] at unread
  obtain ⟨nonempty, all, illegible⟩ := unread
  have front : ∀ directive ∈ generalOf data ++ publicOf part, directive.Reads false := fun _ among =>
    (List.mem_append.mp among).elim (reads_generalOf data _) (reads_publicOf part _)
  have private_eq : privateOf part.privateField = [.valued (text "private") part.privateField] := by
    rw [privateOf, if_pos nonempty, if_neg all]
  have option_eq : toCacheOption data = ahead (generalOf data ++ publicOf part) ++
      (text "private" ++ 61 :: (part.privateField ++ behind (revalidateOf part))) := by
    rw [toCacheOption_eq, directivesOf_response variant, private_eq, List.singleton_append,
      appended_split (fun directive among => written_ne_nil (front directive among))
        (List.append_ne_nil_of_left_ne_nil isToken_private.1 _), Directive.written, List.append_assoc]
    rfl
  have begins : Begins (text "private" ++ 61 :: (part.privateField ++ behind (revalidateOf part))) :=
    begins_token isToken_private
  obtain ⟨first_eq, anchored⟩ := anchored_begins (begins_ahead front begins)
  obtain ⟨next, next_anchored, next_drop, continues⟩ := continues_ahead anchored rfl begins front
  rw [← option_eq] at first_eq next_anchored next_drop continues
  obtain ⟨no_equals, no_quote⟩ := notMem_behind part
  have stands : Stands (toCacheOption data) next (text "private") part.privateField
      (behind (revalidateOf part)) :=
    ⟨next_anchored.positive, next_drop, isToken_private.2, no_equals, no_quote, stops_behind _⟩
  have later := stands.notMem_valuesFrom (illegible_of_not_legible nonempty illegible) next_anchored
    (text "private")
  have kind : data.ckind = .response := by rw [CacheData.ckind, variant]
  have start : Lacks part.privateField (CacheData.initial .response) := by
    rintro _ ⟨⟩
    exact Ne.symm nonempty
  intro same
  rw [kind, toCacheData, parseRaising_eq] at same
  obtain ⟨result, received, returned⟩ := Http2.bind_eq_ok_iff.mp same
  have result_eq : result = data := by
    cases found : split (toCacheOption data) with
    | ok elements =>
        rw [found] at returned
        exact Except.ok.inj returned
    | error failure =>
        rw [found] at returned
        cases returned
  rw [values, first_eq, continues.values] at received
  have lacks := lacks_receiveAll start all
    (fun among => (List.mem_append.mp among).elim (notMem_front data part _) later) received
  exact lacks part (result_eq ▸ variant) rfl

/-! ## Round trip -/

/-- The data are written in directives that are read back. -/
def Writable (data : CacheData) : Prop :=
  match data.variant with
  | .request part => part.maxStale ≠ anyMaxStale
  | .response part => FieldReads part ∧ isNumber part.privateField = false

theorem requestRead_eq_iff (part : RequestPart) : requestRead part = part ↔ part.maxStale ≠ anyMaxStale := by
  rw [requestRead]
  split_ifs with any
  · refine iff_of_false (fun same => ?_) (not_not.mpr any)
    have stale := congrArg RequestPart.maxStale same
    have other : unset ≠ anyMaxStale := by decide
    exact absurd (stale.trans any) other
  · exact iff_of_true rfl any

theorem responseRead_eq_iff (part : ResponsePart) :
    responseRead part = part ↔ isNumber part.privateField = false := by
  rw [responseRead, fieldRead]
  cases number : isNumber part.privateField with
  | false => exact iff_of_true rfl rfl
  | true =>
      refine iff_of_false (fun same => ?_) (by rintro ⟨⟩)
      have field := congrArg ResponsePart.privateField same
      exact (isNumber_iff.mp number).1 field.symm

theorem toCacheData_toCacheOption_iff (data : CacheData) :
    toCacheData data.ckind (toCacheOption data) = .ok data ↔ Writable data := by
  have variant_iff : ∀ variant : Variant,
      (Except.ok { data with variant } : Except Failure CacheData) = .ok data ↔
        variant = data.variant := by
    intro variant
    rw [Except.ok.injEq]
    constructor
    · exact congrArg CacheData.variant
    · rintro rfl
      rfl
  rw [Writable]
  cases variant : data.variant with
  | request part =>
      rw [toCacheData_request data part variant, variant_iff, variant, Variant.request.injEq,
        requestRead_eq_iff]
  | response part =>
      by_cases reads : FieldReads part
      · rw [toCacheData_response data part variant reads, variant_iff, variant, Variant.response.injEq,
          responseRead_eq_iff]
        exact (and_iff_right reads).symm
      · exact iff_of_false (toCacheData_illegible variant reads) fun both => reads both.1

/-- Cache data are written and read back exactly when they are writable, and reading a string raises
nothing but `Format_Error` exactly when the values are accepted that are found in front of it. -/
theorem cacheControl_iff (data : CacheData) (kind : CacheKind) (value : Text) :
    (toCacheData data.ckind (toCacheOption data) = .ok data ↔ Writable data) ∧
      (OnlyFormatError value (toCacheData kind value) ↔ ∀ element ∈ values value, Accepts kind element) :=
  ⟨toCacheData_toCacheOption_iff data, toCacheData_raises_iff kind value⟩

/-- The directive for any stale response is not read, and that for a number of seconds raises
`Constraint_Error` for a response. -/
theorem maxStale_misread :
    toCacheData .request (toCacheOption { variant := .request { maxStale := anyMaxStale } }) ≠
        .ok { variant := .request { maxStale := anyMaxStale } } ∧
      toCacheData .response (text "max-stale=5") = constraintError := by
  constructor
  · have read := toCacheData_request { variant := .request { maxStale := anyMaxStale } } _ rfl
    rw [CacheData.ckind] at read
    rw [read]
    decide +kernel
  · have readable : Readable [.valued (text "max-stale") (image 5)] :=
      readable_of_forall (List.forall_mem_singleton.mpr (reads_image (by decide +kernel) 5))
    exact toCacheData_readable readable .response

end Messages
end AdaWebServer
