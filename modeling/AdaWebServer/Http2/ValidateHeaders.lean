import AdaWebServer.Containers.Tables
import AdaWebServer.Foundations.Outcome

/-!
# Validation of request headers

The header list of a request is checked in one pass.  What the pass checks is not all that a request has
to satisfy: some names that belong to the connection, a second authority and a lone colon go through.
-/

namespace AdaWebServer
namespace Http2

open Containers (Element Table)

/-- `Pseudo_Enum`. -/
inductive Pseudo where
  | method
  | scheme
  | path
  deriving DecidableEq

/-- The headers of which there has to be exactly one. -/
def Pseudo.name : Pseudo → Text
  | method => text ":method"
  | scheme => text ":scheme"
  | path => text ":path"

/-- `Has_Pseudo'Range`. -/
def Pseudo.range : List Pseudo := [method, scheme, path]

/-- `Pseudo_Enum'Value` of a header, if it is one of the tokens. -/
def Pseudo.ofName (header : Text) : Option Pseudo := range.find? (·.name = header)

/-- The header of which there may be one. -/
def authority : Text := text ":authority"

/-- The character is in `Upper_Set`. -/
def isUpper (c : UInt8) : Bool := (65 ≤ c && c ≤ 90) || (192 ≤ c && c ≤ 222 && c ≠ 215)

/-- The header is taken for a pseudo header. -/
def isPseudo (header : Text) : Bool := 1 < header.length && header.head? = some 58

/-- The variables of `Validate_Headers`. -/
structure Validation where
  headerFound : Bool := false
  hasPseudo : Pseudo → Bool := fun _ => false

namespace Validation

/-- The checks of a pseudo header, or the message that is logged. -/
def checkPseudo (state : Validation) (header value : Text) : Except Text Validation :=
  if isPseudo header then
    if state.headerFound then .error (text "pseudo headers must appear first")
    else
      match Pseudo.ofName header with
      | some pseudo =>
          if state.hasPseudo pseudo then
            .error (text "duplicate " ++ header ++ text " pseudo header")
          else if pseudo = .path ∧ value = [] then
            .error (text "empty header path should be rejected")
          else .ok { state with hasPseudo := Function.update state.hasPseudo pseudo true }
      | none =>
          if header ≠ authority then .error (text "unknown pseudo header " ++ header) else .ok state
  else .ok { state with headerFound := true }

/-- The checks of any header. -/
def checkHeader (header value : Text) : Except Text Unit :=
  if header.any isUpper then .error (text "no upper case allowed")
  else if header = text "connection" then .error (text "no connection specific header allowed")
  else if header = text "te" ∧ value ≠ text "trailers" then
    .error (text "no TE header except with single value \"trailers\"")
  else .ok ()

/-- One header of the loop. -/
def next (state : Validation) (header : Element) : Except Text Validation := do
  let checked ← state.checkPseudo header.name header.value
  checkHeader header.name header.value
  .ok checked

/-- The message for a pseudo header that is missing. -/
def missing (pseudo : Pseudo) : Text := text "pseudo header " ++ pseudo.name ++ text " must exists"

/-- The pass over the headers: the error, and what is written to the error log. -/
def run (headers : List Element) : ErrorCode × List Text :=
  match headers.foldlM next {} with
  | .error message => (.protocolError, [message])
  | .ok state =>
      let missing := Pseudo.range.filter fun pseudo => !state.hasPseudo pseudo
      (if missing = [] then .noError else .protocolError, missing.map Validation.missing)

end Validation

/-- `Validate_Headers`. -/
def validateHeaders (headers : Table) : ErrorCode × List Text := Validation.run headers.data

/-! ## The rules -/

/-- The rules, up to what is a pseudo header. -/
structure Rules (isPseudo : Text → Bool) (headers : List Element) : Prop where
  once : ∀ pseudo : Pseudo, (headers.map Element.name).count pseudo.name = 1
  first : headers.Pairwise fun before after => isPseudo after.name → isPseudo before.name
  known : ∀ header ∈ headers, isPseudo header.name →
    header.name = authority ∨ ∃ pseudo : Pseudo, header.name = pseudo.name
  path : ∀ header ∈ headers, header.name = Pseudo.path.name → header.value ≠ []
  lower : ∀ header ∈ headers, header.name.any isUpper = false
  connection : ∀ header ∈ headers, header.name ≠ text "connection"
  te : ∀ header ∈ headers, header.name = text "te" → header.value = text "trailers"

/-- The other names that belong to the connection. -/
def connectionNames : List Text :=
  [text "proxy-connection", text "keep-alive", text "transfer-encoding", text "upgrade"]

/-- What a request has to satisfy. -/
structure Conforms (headers : List Element) : Prop extends
    Rules (fun name => name.head? = some 58) headers where
  authority : (headers.map Element.name).count authority ≤ 1
  names : ∀ header ∈ headers, header.name ∉ connectionNames

/-- Nothing that the pass does not look for: a second authority, a name that belongs to the connection
or a lone colon. -/
structure Unsuspicious (headers : List Element) : Prop where
  authority : (headers.map Element.name).count authority ≤ 1
  names : ∀ header ∈ headers, header.name ∉ connectionNames
  colon : ∀ header ∈ headers, header.name ≠ [58]

theorem isPseudo_iff {name : Text} : isPseudo name = true ↔ name.head? = some 58 ∧ name ≠ [58] := by
  rw [isPseudo, Bool.and_eq_true, decide_eq_true_eq, decide_eq_true_eq, and_comm,
    and_congr_right_iff]
  intro colon
  cases name with
  | nil => cases colon
  | cons c rest =>
      cases colon
      cases rest with
      | nil => exact iff_of_false (Nat.lt_irrefl 1) (not_not_intro rfl)
      | cons c' rest => exact iff_of_true (by simp) (by simp)

theorem Pseudo.isPseudo_name (pseudo : Pseudo) : isPseudo pseudo.name = true := by
  cases pseudo <;> decide +kernel

theorem Pseudo.name_injective : Function.Injective Pseudo.name := by
  have apart : ∀ left ∈ range, ∀ right ∈ range, left.name = right.name → left = right := by
    decide +kernel
  have all : ∀ pseudo, pseudo ∈ range := by
    intro pseudo
    cases pseudo <;> decide
  exact fun left right same => apart left (all left) right (all right) same

theorem Pseudo.mem_range (pseudo : Pseudo) : pseudo ∈ range := by
  cases pseudo <;> decide

theorem Pseudo.ofName_name (pseudo : Pseudo) : ofName pseudo.name = some pseudo := by
  cases pseudo <;> decide +kernel

theorem Pseudo.ofName_eq_some {header : Text} {pseudo : Pseudo} (found : ofName header = some pseudo) :
    header = pseudo.name := by
  rw [ofName] at found
  have same := List.find?_some found
  exact (of_decide_eq_true same).symm

theorem conforms_iff {headers : List Element} :
    Conforms headers ↔ Rules isPseudo headers ∧ Unsuspicious headers := by
  have alike : (∀ header ∈ headers, header.name ≠ [58]) → ∀ header ∈ headers,
      (isPseudo header.name = true ↔ header.name.head? = some 58) := by
    intro colon header among
    rw [isPseudo_iff]
    exact and_iff_left (colon header among)
  constructor
  · intro conforms
    have colon : ∀ header ∈ headers, header.name ≠ [58] := by
      intro header among lone
      obtain same | ⟨pseudo, same⟩ := conforms.known header among (by rw [lone]; rfl)
      · rw [lone] at same
        revert same
        decide +kernel
      · have pseudo_name := pseudo.isPseudo_name
        rw [← same, lone] at pseudo_name
        cases pseudo_name
    have alike := alike colon
    refine ⟨⟨conforms.once, ?_, ?_, conforms.path, conforms.lower, conforms.connection, conforms.te⟩,
      conforms.authority, conforms.names, colon⟩
    · refine conforms.first.imp_of_mem fun before after precedes pseudo => ?_
      exact (alike _ before).mpr
        (of_decide_eq_true (precedes (decide_eq_true ((alike _ after).mp pseudo))))
    · intro header among pseudo
      exact conforms.known header among (decide_eq_true ((alike header among).mp pseudo))
  · rintro ⟨rules, unsuspicious⟩
    have alike := alike unsuspicious.colon
    refine ⟨⟨rules.once, ?_, ?_, rules.path, rules.lower, rules.connection, rules.te⟩,
      unsuspicious.authority, unsuspicious.names⟩
    · refine rules.first.imp_of_mem fun before after precedes pseudo => ?_
      exact decide_eq_true
        ((alike _ before).mp (precedes ((alike _ after).mpr (of_decide_eq_true pseudo))))
    · intro header among pseudo
      exact rules.known header among ((alike header among).mpr (of_decide_eq_true pseudo))

/-! ## The pass -/

namespace Validation

/-- The header goes through in a state. -/
structure Passes (state : Validation) (header : Element) : Prop where
  first : isPseudo header.name → state.headerFound = false
  known : isPseudo header.name → header.name = authority ∨ ∃ pseudo : Pseudo,
    header.name = pseudo.name
  fresh : ∀ pseudo : Pseudo, header.name = pseudo.name → state.hasPseudo pseudo = false
  path : header.name = Pseudo.path.name → header.value ≠ []
  lower : header.name.any isUpper = false
  connection : header.name ≠ text "connection"
  te : header.name = text "te" → header.value = text "trailers"

/-- The state after a header that goes through. -/
def passed (state : Validation) (header : Element) : Validation where
  headerFound := state.headerFound || !isPseudo header.name
  hasPseudo pseudo := state.hasPseudo pseudo || header.name = pseudo.name

private theorem checkPseudo_outcome (state : Validation) (header : Element) :
    Outcome ((isPseudo header.name → state.headerFound = false) ∧
        (isPseudo header.name → header.name = authority ∨ ∃ pseudo : Pseudo,
          header.name = pseudo.name) ∧
        (∀ pseudo : Pseudo, header.name = pseudo.name → state.hasPseudo pseudo = false) ∧
        (header.name = Pseudo.path.name → header.value ≠ []))
      (· = state.passed header) (state.checkPseudo header.name header.value) := by
  rw [checkPseudo]
  by_cases pseudo : isPseudo header.name = true
  · rw [if_pos pseudo]
    by_cases found : state.headerFound = true
    · rw [if_pos found]
      refine ⟨fun possible => ?_, fun _ => ⟨_, rfl⟩⟩
      rw [possible.1 pseudo] at found
      cases found
    rw [if_neg found]
    have early := Bool.eq_false_iff.mpr found
    cases named : Pseudo.ofName header.name with
    | none =>
        have other : ∀ pseudo : Pseudo, header.name ≠ pseudo.name := by
          intro pseudo same
          rw [same, Pseudo.ofName_name] at named
          cases named
        dsimp only
        by_cases authority_eq : header.name = authority
        · rw [if_neg (not_not_intro authority_eq)]
          refine ⟨fun _ => ⟨_, rfl, ?_⟩, fun impossible => absurd ⟨fun _ => early,
            fun _ => .inl authority_eq, fun pseudo same => absurd same (other pseudo),
            fun same => absurd same (other .path)⟩ impossible⟩
          rw [passed, pseudo]
          simp [other]
        · rw [if_pos authority_eq]
          refine ⟨fun possible => ?_, fun _ => ⟨_, rfl⟩⟩
          obtain same | ⟨pseudo', same⟩ := possible.2.1 pseudo
          · exact absurd same authority_eq
          · exact absurd same (other pseudo')
    | some pseudo' =>
        have name_eq := Pseudo.ofName_eq_some named
        dsimp only
        by_cases seen : state.hasPseudo pseudo' = true
        · rw [if_pos seen]
          refine ⟨fun possible => ?_, fun _ => ⟨_, rfl⟩⟩
          rw [possible.2.2.1 pseudo' name_eq] at seen
          cases seen
        rw [if_neg seen]
        by_cases empty : pseudo' = .path ∧ header.value = []
        · rw [if_pos empty]
          refine ⟨fun possible => ?_, fun _ => ⟨_, rfl⟩⟩
          exact absurd empty.2 (possible.2.2.2 (empty.1 ▸ name_eq))
        rw [if_neg empty]
        refine ⟨fun _ => ⟨_, rfl, ?_⟩, fun impossible => absurd ⟨fun _ => early,
          fun _ => .inr ⟨pseudo', name_eq⟩, fun other same => ?_, fun same none => ?_⟩ impossible⟩
        · rw [passed, pseudo]
          congr 1
          · simp
          · funext other
            rw [Function.update_apply]
            by_cases same : other = pseudo'
            · subst same
              simp [name_eq]
            · rw [if_neg same, name_eq]
              simp [Pseudo.name_injective.eq_iff, Ne.symm same]
        · rw [name_eq] at same
          rw [← Pseudo.name_injective same]
          exact Bool.eq_false_iff.mpr seen
        · rw [name_eq] at same
          exact empty ⟨Pseudo.name_injective same, none⟩
  · rw [if_neg pseudo]
    have other : ∀ pseudo : Pseudo, header.name ≠ pseudo.name := by
      intro pseudo' same
      rw [same] at pseudo
      exact pseudo pseudo'.isPseudo_name
    refine ⟨fun _ => ⟨_, rfl, ?_⟩, fun impossible => absurd ⟨fun is => absurd is pseudo,
      fun is => absurd is pseudo, fun pseudo same => absurd same (other pseudo),
      fun same => absurd same (other .path)⟩ impossible⟩
    rw [passed, Bool.eq_false_iff.mpr pseudo]
    simp [other]

private theorem checkHeader_outcome (header : Element) :
    Outcome (header.name.any isUpper = false ∧ header.name ≠ text "connection" ∧
        (header.name = text "te" → header.value = text "trailers"))
      (fun _ => True) (checkHeader header.name header.value) := by
  rw [checkHeader]
  by_cases upper : header.name.any isUpper = true
  · rw [if_pos upper]
    refine ⟨fun possible => ?_, fun _ => ⟨_, rfl⟩⟩
    rw [possible.1] at upper
    cases upper
  rw [if_neg upper]
  by_cases connection : header.name = text "connection"
  · rw [if_pos connection]
    exact ⟨fun possible => absurd connection possible.2.1, fun _ => ⟨_, rfl⟩⟩
  rw [if_neg connection]
  by_cases te : header.name = text "te" ∧ header.value ≠ text "trailers"
  · rw [if_pos te]
    exact ⟨fun possible => absurd (possible.2.2 te.1) te.2, fun _ => ⟨_, rfl⟩⟩
  · rw [if_neg te]
    refine ⟨fun _ => ⟨_, rfl, trivial⟩, fun impossible => absurd ⟨Bool.eq_false_iff.mpr upper,
      connection, fun same => ?_⟩ impossible⟩
    by_contra different
    exact te ⟨same, different⟩

theorem next_outcome (state : Validation) (header : Element) :
    Outcome (state.Passes header) (· = state.passed header) (state.next header) := by
  refine ((checkPseudo_outcome state header).bind fun checked checked_eq =>
    @Outcome.map _ _ _ _ _ (· = state.passed header) _ (checkHeader_outcome header)
      (fun _ => checked) fun _ _ => checked_eq).congr ?_
  constructor
  · rintro ⟨⟨first, known, fresh, path⟩, lower, connection, te⟩
    exact ⟨first, known, fresh, path, lower, connection, te⟩
  · intro passes
    exact ⟨⟨passes.first, passes.known, passes.fresh, passes.path⟩, passes.lower,
      passes.connection, passes.te⟩

/-- The headers go through from a state on. -/
structure PassesAll (state : Validation) (headers : List Element) : Prop where
  late : state.headerFound = true → ∀ header ∈ headers, isPseudo header.name = false
  first : headers.Pairwise fun before after => isPseudo after.name → isPseudo before.name
  known : ∀ header ∈ headers, isPseudo header.name →
    header.name = authority ∨ ∃ pseudo : Pseudo, header.name = pseudo.name
  fresh : ∀ pseudo : Pseudo, (headers.map Element.name).count pseudo.name +
    (if state.hasPseudo pseudo = true then 1 else 0) ≤ 1
  path : ∀ header ∈ headers, header.name = Pseudo.path.name → header.value ≠ []
  lower : ∀ header ∈ headers, header.name.any isUpper = false
  connection : ∀ header ∈ headers, header.name ≠ text "connection"
  te : ∀ header ∈ headers, header.name = text "te" → header.value = text "trailers"

theorem passesAll_cons {state : Validation} {header : Element} {headers : List Element} :
    state.PassesAll (header :: headers) ↔
      state.Passes header ∧ (state.passed header).PassesAll headers := by
  have count_eq : ∀ pseudo : Pseudo, ((header :: headers).map Element.name).count pseudo.name =
      (headers.map Element.name).count pseudo.name + if header.name = pseudo.name then 1 else 0 := by
    intro pseudo
    rw [List.map_cons, List.count_cons]
    simp
  constructor
  · intro passes
    obtain ⟨precedes, first⟩ := List.pairwise_cons.mp passes.first
    refine ⟨⟨fun pseudo => ?_, passes.known header List.mem_cons_self, fun pseudo same => ?_,
      passes.path header List.mem_cons_self, passes.lower header List.mem_cons_self,
      passes.connection header List.mem_cons_self, passes.te header List.mem_cons_self⟩,
      ⟨fun late other among => ?_, first, fun other among => passes.known other
        (List.mem_cons_of_mem _ among), fun pseudo => ?_, fun other among => passes.path other
        (List.mem_cons_of_mem _ among), fun other among => passes.lower other
        (List.mem_cons_of_mem _ among), fun other among => passes.connection other
        (List.mem_cons_of_mem _ among), fun other among => passes.te other
        (List.mem_cons_of_mem _ among)⟩⟩
    · refine Bool.eq_false_iff.mpr fun late => ?_
      rw [passes.late late header List.mem_cons_self] at pseudo
      cases pseudo
    · have fresh := passes.fresh pseudo
      rw [count_eq, if_pos same] at fresh
      refine Bool.eq_false_iff.mpr fun seen => ?_
      rw [if_pos seen] at fresh
      omega
    · have late : (state.headerFound || !isPseudo header.name) = true := late
      rw [Bool.or_eq_true, Bool.not_eq_true'] at late
      obtain late | regular := late
      · exact passes.late late other (List.mem_cons_of_mem _ among)
      · refine Bool.eq_false_iff.mpr fun pseudo => ?_
        rw [precedes other among pseudo] at regular
        cases regular
    · have fresh := passes.fresh pseudo
      rw [count_eq] at fresh
      show _ + (if (state.hasPseudo pseudo || decide (header.name = pseudo.name)) = true then 1
        else 0) ≤ 1
      by_cases seen : state.hasPseudo pseudo = true
      · rw [if_pos seen] at fresh
        rw [if_pos (by rw [seen]; rfl)]
        omega
      · rw [if_neg seen] at fresh
        rw [Bool.eq_false_iff.mpr seen, Bool.false_or]
        simp only [decide_eq_true_eq]
        omega
  · rintro ⟨passes, later⟩
    refine ⟨fun late => ?_, List.pairwise_cons.mpr ⟨fun other among pseudo => ?_, later.first⟩,
      List.forall_mem_cons.mpr ⟨passes.known, later.known⟩, fun pseudo => ?_,
      List.forall_mem_cons.mpr ⟨passes.path, later.path⟩,
      List.forall_mem_cons.mpr ⟨passes.lower, later.lower⟩,
      List.forall_mem_cons.mpr ⟨passes.connection, later.connection⟩,
      List.forall_mem_cons.mpr ⟨passes.te, later.te⟩⟩
    · refine List.forall_mem_cons.mpr ⟨Bool.eq_false_iff.mpr fun pseudo => ?_, later.late ?_⟩
      · rw [passes.first pseudo] at late
        cases late
      · show (state.headerFound || _) = true
        rw [late, Bool.true_or]
    · by_contra regular
      have regular := Bool.eq_false_iff.mpr regular
      have none := later.late (by
        show (_ || !isPseudo header.name) = true
        rw [regular, Bool.not_false, Bool.or_true]) other among
      rw [pseudo] at none
      cases none
    · have fresh := later.fresh pseudo
      have fresh : _ + (if (state.hasPseudo pseudo || decide (header.name = pseudo.name)) = true then 1
        else 0) ≤ 1 := fresh
      rw [count_eq]
      by_cases same : header.name = pseudo.name
      · have unseen := passes.fresh pseudo same
        rw [unseen, Bool.false_or] at fresh
        rw [if_pos same, unseen, if_neg Bool.false_ne_true]
        simpa [same] using fresh
      · rw [if_neg same]
        simpa [same] using fresh

/-- The loop. -/
theorem foldlM_next_outcome (state : Validation) (headers : List Element) :
    Outcome (state.PassesAll headers)
      (fun final => ∀ pseudo, final.hasPseudo pseudo = true ↔
        state.hasPseudo pseudo = true ∨ pseudo.name ∈ headers.map Element.name)
      (headers.foldlM next state) := by
  induction headers generalizing state with
  | nil =>
      have passes : state.PassesAll [] :=
        ⟨fun _ => nofun, .nil, nofun, fun pseudo => by split_ifs <;> simp, nofun, nofun, nofun, nofun⟩
      exact ⟨fun _ => ⟨state, rfl, fun pseudo => by simp⟩, fun impossible => absurd passes impossible⟩
  | cons header headers ih =>
      rw [List.foldlM_cons]
      refine ((next_outcome state header).bind fun after after_eq => ?_).congr passesAll_cons.symm
      subst after_eq
      refine (ih (state.passed header)).mono fun final has pseudo => (has pseudo).trans ?_
      show (state.hasPseudo pseudo || decide (header.name = pseudo.name)) = true ∨ _ ↔ _
      rw [Bool.or_eq_true, decide_eq_true_eq, List.map_cons, List.mem_cons, or_assoc,
        @eq_comm _ header.name]

end Validation

/-- `Validate_Headers` reports no error exactly for the lists that satisfy what it checks. -/
theorem validateHeaders_eq_noError {headers : Table} :
    (validateHeaders headers).1 = .noError ↔ Rules isPseudo headers.data := by
  have outcome := Validation.foldlM_next_outcome {} headers.data
  rw [validateHeaders, Validation.run]
  by_cases passes : Validation.PassesAll {} headers.data
  · obtain ⟨final, returned, has⟩ := outcome.returns passes
    rw [returned]
    have missing_iff : Pseudo.range.filter (fun pseudo => !final.hasPseudo pseudo) = [] ↔
        ∀ pseudo : Pseudo, pseudo.name ∈ headers.data.map Element.name := by
      rw [List.filter_eq_nil_iff]
      constructor
      · intro all pseudo
        have present := all pseudo pseudo.mem_range
        rw [Bool.not_eq_true', Bool.not_eq_false, has] at present
        exact present.resolve_left Bool.false_ne_true
      · intro all pseudo _
        rw [Bool.not_eq_true', Bool.not_eq_false, has]
        exact .inr (all pseudo)
    dsimp only
    constructor
    · intro reported
      split_ifs at reported with complete
      refine ⟨fun pseudo => ?_, passes.first, passes.known, passes.path, passes.lower,
        passes.connection, passes.te⟩
      have positive := List.count_pos_iff.mpr (missing_iff.mp complete pseudo)
      have fresh := passes.fresh pseudo
      omega
    · intro rules
      refine if_pos (missing_iff.mpr fun pseudo => ?_)
      rw [← List.count_pos_iff, rules.once]
      exact Nat.one_pos
  · obtain ⟨message, raised⟩ := outcome.raises passes
    rw [raised]
    refine iff_of_false nofun fun rules => passes ?_
    exact ⟨nofun, rules.first, rules.known, fun pseudo => (rules.once pseudo).le, rules.path,
      rules.lower, rules.connection, rules.te⟩

/-- No error is reported exactly for the lists that conform, as long as a list that satisfies what is
checked holds nothing that is not looked for. -/
theorem validateHeaders_conforms_iff (headers : Table) :
    ((validateHeaders headers).1 = .noError ↔ Conforms headers.data) ↔
      (Rules isPseudo headers.data → Unsuspicious headers.data) := by
  rw [validateHeaders_eq_noError, conforms_iff]
  constructor
  · intro same rules
    exact (same.mp rules).2
  · intro clean
    exact ⟨fun rules => ⟨rules, clean rules⟩, And.left⟩

/-- A request with a header that belongs to the connection. -/
def upgradeRequest : Table where
  data := [⟨text ":method", text "GET"⟩, ⟨text ":scheme", text "https"⟩, ⟨text ":path", text "/"⟩,
    ⟨text "upgrade", text "h2c"⟩]

/-- No error is reported for an upgrade. -/
theorem upgrade_not_reported :
    (validateHeaders upgradeRequest).1 = .noError ∧ ¬Conforms upgradeRequest.data := by
  refine ⟨by decide +kernel, fun conforms => ?_⟩
  have names := conforms.names ⟨text "upgrade", text "h2c"⟩ (by decide +kernel)
  revert names
  decide +kernel

end Http2
end AdaWebServer
