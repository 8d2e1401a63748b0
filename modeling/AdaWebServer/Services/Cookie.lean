import AdaWebServer.Containers.HeaderPairs
import AdaWebServer.Containers.TableIndex
import AdaWebServer.Messages.Response
import AdaWebServer.Url.Coding

/-!
# Cookies

A cookie is set in a response as a name with an encoded value, followed by its attributes.  The values of
the cookie headers of a request are joined, and the value of a name is looked for and decoded.
-/

namespace AdaWebServer
namespace Cookie

open Containers (Table Element Entries Failure Represents)
open Containers.HeaderValues (Token Pair Line split)
open Multimap (itemsOf)
open Http2 (Exn Octet Text image naturalOfInt text)
open Response (DataMode)
open Url (decode encode inDefaultEncodingSet)

/-! ## Setting -/

/-- `Default.Ten_Years`, in nanoseconds. -/
def tenYears : Int := 86400 * 365 * 10 * 10 ^ 9

/-- `No_Max_Age`, the first value of the type `Duration`. -/
def noMaxAge : Int := -2 ^ 63

/-- The parameters of `Set` that have defaults. -/
structure Attributes where
  comment : Text := []
  domain : Text := []
  maxAge : Int := tenYears
  path : Text := text "/"
  secure : Bool := false
  httpOnly : Bool := false

/-- The part of a response that `Set` uses. -/
structure Content where
  mode : DataMode
  header : Table

/-- Exceptions of `Set`. -/
inductive SetError where
  /-- `Response_Data_Not_Initialized`. -/
  | notInitialized
  | exception (exn : Exn)
  deriving DecidableEq

/-- `Natural (Max_Age)`, which rounds. -/
def naturalOfDuration (duration : Int) : Except Exn Nat :=
  let half : Int := 500000000
  naturalOfInt
    (if 0 ≤ duration then (duration + half) / 10 ^ 9 else -((half - duration) / 10 ^ 9))

/-- `Add`. -/
def add (cookieContent str : Text) : Text :=
  (if cookieContent = [] then [] else cookieContent ++ text "; ") ++ str

/-- The text of the attribute `Max-Age`. -/
def maxAgePart (maxAge : Int) : Except Exn (List Text) :=
  if maxAge = noMaxAge then .ok []
  else (naturalOfDuration maxAge).map fun seconds => [text "Max-Age=" ++ image seconds]

/-- What `Set` writes behind the value. -/
def attributeParts (attributes : Attributes) (maxAge : List Text) : List Text :=
  [text "Path=" ++ attributes.path] ++ maxAge ++
    (if attributes.comment = [] then [] else [text "Comment=" ++ attributes.comment]) ++
    (if attributes.domain = [] then [] else [text "Domain=" ++ attributes.domain]) ++
    (if attributes.secure then [text "Secure"] else []) ++
    (if attributes.httpOnly then [text "HttpOnly"] else []) ++ [text "Version=1"]

/-- The value of the header of a cookie. -/
def cookieContent (key value : Text) (attributes : Attributes) (maxAge : List Text) : Text :=
  ((key ++ text "=" ++ encode inDefaultEncodingSet value) :: attributeParts attributes maxAge).foldl
    add []

/-- `Set`. -/
def set (content : Content) (key value : Text) (attributes : Attributes := {}) :
    Except SetError Content := do
  if content.mode = .noData then throw .notInitialized
  let maxAge ← (maxAgePart attributes.maxAge).mapError .exception
  let header ← (content.header.added (text "Set-Cookie")
    (cookieContent key value attributes maxAge)).mapError .exception
  return { content with header }

/-! ## Getting -/

/-- The text that `AWS.Headers.Get_Values` joins. -/
def joined : List Text → Text
  | [] => []
  | [value] => value
  | value :: next :: later => value ++ text ", " ++ joined (next :: later)

/-- `Cookies`, the values of the cookie headers of a request. -/
def cookies (request : Table) : Except Failure Text :=
  ((request.getValues (text "Cookie")).mapError .exception).map joined

/-- `AWS.Headers.Values.Index` of a name, with its case. -/
def index (headersSet : List Containers.HeaderValues.Data) (name : Text) : Nat :=
  match headersSet.findIdx? fun item => item.name = some name with
  | some position => position + 1
  | none => 0

/-- `Exists`. -/
def isThere (request : Table) (key : Text) : Except Failure Bool := do
  let headersSet ← split (← cookies request)
  return 0 < index headersSet key

/-- `Get`. -/
def get (request : Table) (key : Text) : Except Failure Text := do
  let line ← cookies request
  match Containers.search line key with
  | some value => return decode true value
  | none => .error (Containers.HeaderValues.formatError line)

/-! ## The client -/

/-- The characters that a client takes off both ends of a name or value. -/
def isBlank (octet : Octet) : Bool := octet = 32 || octet = 9

def trim (str : Text) : Text := ((str.dropWhile isBlank).reverse.dropWhile isBlank).reverse

/-- The name and the value that a client takes from the header of a cookie: they stand in front of the
first semicolon, and the first equals sign is between them. -/
def kept (header : Text) : Option (Text × Text) :=
  let pair := header.takeWhile (· ≠ 59)
  if 61 ∈ pair then
    let name := trim (pair.takeWhile (· ≠ 61))
    if name = [] then none else some (name, trim ((pair.dropWhile (· ≠ 61)).drop 1))
  else none

/-- A header with cookies. -/
def cookieString : List (Text × Text) → Text
  | [] => []
  | [pair] => pair.1 ++ 61 :: pair.2
  | pair :: next :: later => pair.1 ++ 61 :: (pair.2 ++ text "; " ++ cookieString (next :: later))

/-- A request with the cookies of a response, in some order, in as many headers as the client likes. -/
def SentBack (content : Content) (request : Table) : Prop :=
  ∃ (headers : List Text) (groups : List (List (Text × Text))),
    content.header.getValues (text "Set-Cookie") = .ok headers ∧
    groups.flatten.Perm (headers.filterMap kept) ∧ (∀ group ∈ groups, group ≠ []) ∧
    request.getValues (text "Cookie") = .ok (groups.map cookieString)

/-! ## Cookies that are set -/

/-- A cookie: its key, which is a token, its value and its attributes. -/
structure SetCookie where
  key : Token
  value : Text
  attributes : Attributes := {}

/-- The cookies are set one after the other. -/
def setAll (content : Content) (items : List SetCookie) : Except SetError Content :=
  items.foldlM (fun content item => set content item.key.chars item.value item.attributes) content

namespace SetCookie

variable (item : SetCookie)

/-- What the client keeps of the cookie. -/
def sent : Text × Text := (item.key.chars, encode inDefaultEncodingSet item.value)

theorem encode_plain (value : Text) : ∀ octet ∈ encode inDefaultEncodingSet value,
    octet ∉ Containers.valueDelimiters ∧ octet ≠ 34 := by
  intro octet member
  obtain ⟨source, -, inside⟩ := List.mem_flatMap.mp member
  have plain := Http2.forall_octet
    (fun source => (if inDefaultEncodingSet source then 37 :: Url.escapeCode source
      else [source]).all (fun octet => octet ∉ Containers.valueDelimiters ∧ octet ≠ 34) = true)
    (by decide +kernel) source
  exact of_decide_eq_true (List.all_eq_true.mp plain octet inside)

theorem decode_encoded (value : Text) : decode true (encode inDefaultEncodingSet value) = value :=
  Url.decode_encode_of_hasCodes (by decide) (by decide) fun _ _ inside _ => inside

/-- The pair that is read of the cookie. -/
def pair : Pair where
  name := item.key
  value := encode inDefaultEncodingSet item.value
  plain octet member :=
    ⟨fun inside => (encode_plain item.value octet member).1 (List.mem_append_left _ inside),
      (encode_plain item.value octet member).2⟩

/-! ### What the client keeps -/

theorem foldl_add (front : Text) (nonempty : front ≠ []) (part : Text) (parts : List Text) :
    ∃ more, (part :: parts).foldl add front = front ++ 59 :: more := by
  have step (str more : Text) : add (front ++ 59 :: more) str = front ++ 59 :: (more ++ text "; " ++ str) := by
    rw [add, if_neg (by simp)]
    simp
  have first : add front part = front ++ 59 :: (32 :: part) := by
    rw [add, if_neg nonempty, List.append_assoc]
    rfl
  rw [List.foldl_cons, first]
  generalize 32 :: part = more
  induction parts generalizing more with
  | nil => exact ⟨more, rfl⟩
  | cons part parts induction =>
      rw [List.foldl_cons, step]
      exact induction _

theorem takeWhile_eq {front : Text} {stop : Octet} (misses : stop ∉ front) (back : Text) :
    (front ++ stop :: back).takeWhile (· ≠ stop) = front := by
  have all : ∀ octet ∈ front, decide (octet ≠ stop) = true := fun octet member =>
    decide_eq_true fun same => misses (same ▸ member)
  rw [List.takeWhile_append_of_pos all, List.takeWhile_cons_of_neg (by simp), List.append_nil]

theorem dropWhile_eq {front : Text} {stop : Octet} (misses : stop ∉ front) (back : Text) :
    (front ++ stop :: back).dropWhile (· ≠ stop) = stop :: back := by
  have all : ∀ octet ∈ front, decide (octet ≠ stop) = true := fun octet member =>
    decide_eq_true fun same => misses (same ▸ member)
  rw [List.dropWhile_append_of_pos all, List.dropWhile_cons_of_neg (by simp)]

theorem trim_eq {str : Text} (plain : ∀ octet ∈ str, octet ∉ Containers.valueDelimiters) :
    trim str = str := by
  have solid : ∀ octet ∈ str, ¬isBlank octet = true := by
    intro octet member blank
    simp only [isBlank, Bool.or_eq_true, decide_eq_true_eq] at blank
    obtain rfl | rfl := blank <;> exact plain _ member (by decide)
  have kept (list : Text) (among : ∀ octet ∈ list, octet ∈ str) : list.dropWhile isBlank = list := by
    cases list with
    | nil => rfl
    | cons octet rest =>
        exact List.dropWhile_cons_of_neg (solid octet (among octet List.mem_cons_self))
  rw [trim, kept str fun _ member => member, kept str.reverse fun _ => List.mem_reverse.mp,
    List.reverse_reverse]

theorem kept_cookieContent (maxAge : List Text) :
    kept (cookieContent item.key.chars item.value item.attributes maxAge) = some item.sent := by
  have key_plain : ∀ octet ∈ item.key.chars, octet ∉ Containers.valueDelimiters :=
    fun octet member => (item.key.plain octet member).1
  have value_plain : ∀ octet ∈ encode inDefaultEncodingSet item.value,
      octet ∉ Containers.valueDelimiters := fun octet member => (encode_plain _ octet member).1
  let part := item.key.chars ++ 61 :: encode inDefaultEncodingSet item.value
  have part_eq : item.key.chars ++ text "=" ++ encode inDefaultEncodingSet item.value = part := by
    rw [List.append_assoc]
    rfl
  have no_semicolon : 59 ∉ part := by
    intro member
    obtain inside | inside := List.mem_append.mp member
    · exact key_plain 59 inside (by decide)
    · obtain impossible | inside := List.mem_cons.mp inside
      · exact absurd impossible (by decide)
      · exact value_plain 59 inside (by decide)
  have no_equals : 61 ∉ item.key.chars := fun member => key_plain 61 member (by decide)
  obtain ⟨more, content_eq⟩ : ∃ more,
      cookieContent item.key.chars item.value item.attributes maxAge = part ++ 59 :: more := by
    rw [cookieContent, part_eq, attributeParts, List.foldl_cons]
    exact foldl_add part (by simp [part]) _ _
  rw [content_eq, kept, takeWhile_eq no_semicolon]
  dsimp only
  rw [if_pos (by simp [part]), takeWhile_eq no_equals, dropWhile_eq no_equals, trim_eq key_plain,
    List.drop_one, List.tail_cons, trim_eq value_plain, if_neg item.key.nonempty]
  rfl

end SetCookie

/-! ## The headers of the response -/

/-- The table of headers is sound, and these are its cookies. -/
def Holds (content : Content) (headers : List Text) : Prop :=
  ∃ entries : Entries, Represents content.header entries ∧
    (itemsOf (content.header.normalizeName (text "Set-Cookie")) entries).map Element.value = headers

theorem Holds.getValues {content : Content} {headers : List Text} (holds : Holds content headers) :
    content.header.getValues (text "Set-Cookie") = .ok headers := by
  obtain ⟨entries, represents, rfl⟩ := holds
  exact represents.agrees.getValues_eq _

theorem mapError_eq_ok {ε ε' α : Type} {convert : ε → ε'} {result : Except ε α} {value : α}
    (returned : result.mapError convert = .ok value) : result = .ok value := by
  cases result with
  | error failure => cases returned
  | ok found => exact congrArg _ (Except.ok.inj returned)

/-- A cookie that is set is one more of the cookies. -/
theorem Holds.set {content after : Content} {headers : List Text} (holds : Holds content headers)
    {item : SetCookie} (returned : set content item.key.chars item.value item.attributes = .ok after) :
    ∃ maxAge, Holds after
      (headers ++ [cookieContent item.key.chars item.value item.attributes maxAge]) := by
  obtain ⟨entries, represents, headers_eq⟩ := holds
  rw [Cookie.set] at returned
  split_ifs at returned with none_there
  · cases returned
  obtain ⟨maxAge, maxAge_eq, returned⟩ := Http2.bind_eq_ok_iff.mp returned
  obtain ⟨header, header_eq, returned⟩ := Http2.bind_eq_ok_iff.mp returned
  cases returned
  refine ⟨maxAge, ?_⟩
  obtain ⟨next, next_eq, represents', same_mode⟩ := represents.add (text "Set-Cookie")
    (cookieContent item.key.chars item.value item.attributes maxAge)
  have added := mapError_eq_ok header_eq
  rw [Table.added, Table.add, next_eq] at added
  cases added
  refine ⟨_, represents', ?_⟩
  rw [same_mode, Entries.add, Multimap.itemsOf_append, List.map_append, headers_eq, itemsOf,
    if_pos rfl]
  rfl

/-- What the client keeps of the cookies that have been set. -/
theorem Holds.setAll {content after : Content} {headers : List Text} (holds : Holds content headers)
    {items : List SetCookie} (returned : setAll content items = .ok after) :
    ∃ more, Holds after (headers ++ more) ∧ more.filterMap kept = items.map SetCookie.sent := by
  induction items generalizing content headers with
  | nil =>
      cases returned
      exact ⟨[], by rwa [List.append_nil], rfl⟩
  | cons item items induction =>
      rw [Cookie.setAll, List.foldlM_cons] at returned
      obtain ⟨next, next_eq, returned⟩ := Http2.bind_eq_ok_iff.mp returned
      obtain ⟨maxAge, holds'⟩ := holds.set next_eq
      obtain ⟨more, holds'', more_eq⟩ := induction holds' returned
      refine ⟨cookieContent item.key.chars item.value item.attributes maxAge :: more, ?_, ?_⟩
      · rwa [List.append_assoc] at holds''
      · rw [List.filterMap_cons, item.kept_cookieContent, more_eq]
        rfl

/-! ## The headers of the request -/

/-- A pair as the client sends it. -/
def item (pair : Pair) : Text × Text := (pair.name.chars, pair.value)

theorem line_cookieString (pair : Pair) (pairs : List Pair) :
    Line (pair :: pairs) (cookieString ((pair :: pairs).map item)) := by
  induction pairs generalizing pair with
  | nil => exact .single pair
  | cons next pairs induction =>
      have line := Line.cons pair .semicolon (induction next)
      have text_eq : cookieString ((pair :: next :: pairs).map item) =
          pair.text ++ 59 :: 32 :: cookieString ((next :: pairs).map item) := by
        change pair.name.chars ++ 61 :: (pair.value ++ text "; " ++ _) = _
        rw [Pair.text, List.append_assoc, List.append_assoc]
        rfl
      rw [text_eq]
      exact line

theorem line_joined (group : List Pair) (groups : List (List Pair))
    (nonempty : ∀ other ∈ group :: groups, other ≠ []) :
    Line (group :: groups).flatten
      (joined ((group :: groups).map fun group => cookieString (group.map item))) := by
  induction groups generalizing group with
  | nil =>
      obtain ⟨pair, pairs, rfl⟩ := List.exists_cons_of_ne_nil (nonempty _ List.mem_cons_self)
      rw [List.flatten_singleton]
      exact line_cookieString pair pairs
  | cons next groups induction =>
      obtain ⟨pair, pairs, rfl⟩ := List.exists_cons_of_ne_nil (nonempty _ List.mem_cons_self)
      have later := induction next fun other member => nonempty other (List.mem_cons_of_mem _ member)
      have line := (line_cookieString pair pairs).append .comma later
      have text_eq (first : Text) (rest : List Text) (next : Text) :
          joined (first :: next :: rest) = first ++ 44 :: 32 :: joined (next :: rest) := by
        rw [joined, List.append_assoc]
        rfl
      rw [List.flatten_cons, List.map_cons, List.map_cons, List.map_cons, text_eq]
      exact line

theorem exists_pairs {group : List (Text × Text)}
    (each : ∀ sent ∈ group, ∃ pair : Pair, item pair = sent) :
    ∃ pairs : List Pair, pairs.map item = group := by
  induction group with
  | nil => exact ⟨[], rfl⟩
  | cons sent group induction =>
      obtain ⟨⟨pair, rfl⟩, later⟩ := List.forall_mem_cons.mp each
      obtain ⟨pairs, rfl⟩ := induction later
      exact ⟨pair :: pairs, rfl⟩

theorem exists_groups {groups : List (List (Text × Text))}
    (each : ∀ sent ∈ groups.flatten, ∃ pair : Pair, item pair = sent) :
    ∃ lists : List (List Pair), (lists.map fun pairs => pairs.map item) = groups := by
  induction groups with
  | nil => exact ⟨[], rfl⟩
  | cons group groups induction =>
      obtain ⟨pairs, rfl⟩ := exists_pairs fun sent member =>
        each sent (List.mem_append_left _ member)
      obtain ⟨lists, rfl⟩ := induction fun sent member => each sent (List.mem_append_right _ member)
      exact ⟨pairs :: lists, rfl⟩

section Request

variable {request : Table} {groups : List (List Pair)} {key : Text}

/-- The line of the cookies of a request, if it has any. -/
theorem cookies_eq
    (values : request.getValues (text "Cookie") =
      .ok (groups.map fun group => cookieString (group.map item))) :
    cookies request = .ok (joined (groups.map fun group => cookieString (group.map item))) := by
  rw [cookies, values]
  rfl

theorem split_cookies (nonempty : ∀ group ∈ groups, group ≠ []) :
    split (joined (groups.map fun group => cookieString (group.map item))) =
      .ok (groups.flatten.map Pair.data) := by
  cases groups with
  | nil => exact Containers.HeaderValues.toSet_zero
  | cons group groups =>
      exact Containers.HeaderValues.split_line (line_joined group groups nonempty)

theorem search_cookies (nonempty : ∀ group ∈ groups, group ≠ []) (key : Text) :
    Containers.search (joined (groups.map fun group => cookieString (group.map item))) key =
      some ((Containers.HeaderValues.valueOf key groups.flatten).getD []) := by
  cases groups with
  | nil => rfl
  | cons group groups =>
      exact Containers.HeaderValues.search_line (line_joined group groups nonempty) key

theorem index_pos_iff (pairs : List Pair) (key : Text) :
    0 < index (pairs.map Pair.data) key ↔ key ∈ (pairs.map item).map Prod.fst := by
  have found : ((pairs.map Pair.data).findIdx? fun item => item.name = some key).isSome ↔
      key ∈ (pairs.map item).map Prod.fst := by
    rw [List.findIdx?_isSome, List.any_eq_true]
    simp [Pair.data, item, eq_comm]
  rw [← found, index]
  cases (pairs.map Pair.data).findIdx? fun item => item.name = some key <;> simp

theorem isThere_eq (nonempty : ∀ group ∈ groups, group ≠ [])
    (values : request.getValues (text "Cookie") =
      .ok (groups.map fun group => cookieString (group.map item))) :
    isThere request key = .ok (decide (key ∈ (groups.flatten.map item).map Prod.fst)) := by
  rw [isThere, cookies_eq values, Http2.ok_bind, split_cookies nonempty, Http2.ok_bind]
  exact congrArg _ (decide_eq_decide.mpr (index_pos_iff _ _))

theorem get_eq (nonempty : ∀ group ∈ groups, group ≠ [])
    (values : request.getValues (text "Cookie") =
      .ok (groups.map fun group => cookieString (group.map item))) :
    get request key =
      .ok (decode true ((Containers.HeaderValues.valueOf key groups.flatten).getD [])) := by
  rw [get, cookies_eq values, Http2.ok_bind, search_cookies nonempty]
  rfl

/-- The value of a name that stands there once. -/
theorem valueOf_eq {pairs : List Pair} {value : Text}
    (distinct : ((pairs.map item).map Prod.fst).Nodup) (among : (key, value) ∈ pairs.map item) :
    Containers.HeaderValues.valueOf key pairs = some value := by
  induction pairs with
  | nil => cases among
  | cons pair pairs induction =>
      obtain ⟨fresh, later⟩ := List.nodup_cons.mp distinct
      rw [Containers.HeaderValues.valueOf, List.find?_cons]
      obtain same | behind := List.mem_cons.mp among
      · cases same
        simp
      · have different : pair.name.chars ≠ key := by
          rintro rfl
          exact fresh (List.mem_map.mpr ⟨_, behind, rfl⟩)
        rw [decide_eq_false different]
        exact induction later behind

end Request

/-- What a client keeps of the cookies of a response and sends back is there, and nothing else, with
the values that have been set. -/
theorem get_setAll {content after : Content} (fresh : Holds content []) {items : List SetCookie}
    (distinct : (items.map fun item => item.key.chars).Nodup)
    (returned : setAll content items = .ok after) {request : Table}
    (sent : SentBack after request) :
    (∀ key, isThere request key = .ok (decide (key ∈ items.map fun item => item.key.chars))) ∧
      ∀ item ∈ items, get request item.key.chars = .ok item.value := by
  obtain ⟨more, holds', more_eq⟩ := fresh.setAll returned
  obtain ⟨headers, groups, headers_eq, same, nonempty, values⟩ := sent
  rw [List.nil_append] at holds'
  rw [holds'.getValues] at headers_eq
  cases headers_eq
  rw [more_eq] at same
  have each : ∀ sent ∈ groups.flatten, ∃ pair : Pair, item pair = sent := by
    intro sent member
    obtain ⟨cookie, -, rfl⟩ := List.mem_map.mp (same.mem_iff.mp member)
    exact ⟨cookie.pair, rfl⟩
  obtain ⟨lists, rfl⟩ := exists_groups each
  have nonempty' : ∀ pairs ∈ lists, pairs ≠ [] := by
    rintro pairs member rfl
    exact nonempty _ (List.mem_map.mpr ⟨[], member, rfl⟩) rfl
  rw [List.map_map] at values
  have flat : (lists.map fun pairs => pairs.map item).flatten = lists.flatten.map item :=
    (List.map_flatten).symm
  rw [flat] at same
  have names : (items.map SetCookie.sent).map Prod.fst = items.map fun item => item.key.chars := by
    rw [List.map_map]
    rfl
  have keys := same.map Prod.fst
  rw [names] at keys
  refine ⟨fun key => ?_, fun cookie member => ?_⟩
  · rw [isThere_eq nonempty' values]
    exact congrArg _ (decide_eq_decide.mpr keys.mem_iff)
  · have among := same.mem_iff.mpr (List.mem_map_of_mem member)
    rw [get_eq nonempty' values, valueOf_eq (keys.nodup_iff.mpr distinct) among]
    exact congrArg _ (SetCookie.decode_encoded cookie.value)

/-- A page without cookies. -/
def page : Content where
  mode := .message
  header := {}

/-- A cookie with separators, quotes and a control character in its value, and one without a value. -/
def someCookies : List SetCookie :=
  [{ key := Containers.HeaderValues.letter, value := text "x; \"b=1\", +%41" ++ [0, 255] },
    { key := ⟨text "b", by decide, List.forall_mem_singleton.mpr (by decide +kernel)⟩, value := [] }]

/-- A request with two cookie headers. -/
def cookieRequest : Table :=
  Protected.left ((do
    Table.add (text "cookie") (text "b=")
    Table.add (text "Host") (text "localhost")
    Table.add (text "Cookie") (text "a=x%3B%20%22b%3D1%22%2C%20%2B%2541%00%FF") : EStateM Exn Table Unit)
      { caseSensitive := false })

theorem get_someCookies :
    ∃ after, setAll page someCookies = .ok after ∧
      (∀ key, isThere cookieRequest key =
        .ok (decide (key ∈ someCookies.map fun item => item.key.chars))) ∧
      ∀ item ∈ someCookies, get cookieRequest item.key.chars = .ok item.value := by
  have fresh : Holds page [] := ⟨[], ⟨rfl, fun key => Std.TreeMap.getElem?_emptyc⟩, rfl⟩
  cases returned : setAll page someCookies with
  | error failure =>
      have returns : (setAll page someCookies).isOk = true := by decide +kernel
      rw [returned] at returns
      cases returns
  | ok after =>
      refine ⟨after, rfl, get_setAll fresh (by decide +kernel) returned ?_⟩
      obtain ⟨more, holds, more_eq⟩ := fresh.setAll returned
      refine ⟨more, [[(text "b", [])], [(text "a", text "x%3B%20%22b%3D1%22%2C%20%2B%2541%00%FF")]],
        holds.getValues, ?_, by decide +kernel, by decide +kernel⟩
      rw [more_eq]
      decide +kernel

end Cookie
end AdaWebServer
