import AdaWebServer.Http2.Message

/-!
# Header frames

The loop of `Handle_Headers` cuts a header list in parts and encodes each of them in a frame.
-/

namespace AdaWebServer
namespace Http2

/-- The parts that the loop of `Handle_Headers` encodes, unless a size is not a `Natural`. -/
def headerParts (maxSize : Nat) : Hpack.Headers → Hpack.Headers → Nat → Option (List Hpack.Headers)
  | [], l, _ => some (if l = [] then [] else [l])
  | header :: headers, l, size =>
      if size + headerSize header ≤ naturalLast then
        if maxSize < size + headerSize header then
          (headerParts maxSize headers [header] (headerSize header)).map (l :: ·)
        else
          headerParts maxSize headers (l ++ [header]) (size + headerSize header)
      else
        none

/-- Each part, encoded with the table that the parts before it leave, fits in a frame. -/
def PartsFit (stack : Nat) (settings : Connection) (limit : Nat) :
    List Hpack.Headers → Hpack.DynamicTable → Prop
  | [], _ => True
  | part :: parts, table =>
      match Hpack.encode stack settings table part with
      | .ok (octets, after) => octets.length ≤ limit ∧ PartsFit stack settings limit parts after
      | .error _ => False

theorem partsFit_cons_iff {stack : Nat} {settings : Connection} {limit : Nat} {part : Hpack.Headers}
    {parts : List Hpack.Headers} {table : Hpack.DynamicTable} :
    PartsFit stack settings limit (part :: parts) table ↔ ∃ octets after,
      Hpack.encode stack settings table part = .ok (octets, after) ∧ octets.length ≤ limit ∧
        PartsFit stack settings limit parts after := by
  rw [PartsFit]
  cases Hpack.encode stack settings table part with
  | error exn => simp
  | ok outcome =>
      obtain ⟨octets, after⟩ := outcome
      simp

@[simp]
theorem partsFit_nil (stack : Nat) (settings : Connection) (limit : Nat)
    (table : Hpack.DynamicTable) :
    PartsFit stack settings limit [] table := trivial

instance decidablePartsFit (stack : Nat) (settings : Connection) (limit : Nat) :
    (parts : List Hpack.Headers) → (table : Hpack.DynamicTable) →
      Decidable (PartsFit stack settings limit parts table)
  | [], _ => inferInstanceAs (Decidable True)
  | part :: parts, table =>
      match encoded : Hpack.encode stack settings table part with
      | .ok (octets, after) =>
          have : Decidable (PartsFit stack settings limit parts after) :=
            decidablePartsFit stack settings limit parts after
          decidable_of_iff (octets.length ≤ limit ∧ PartsFit stack settings limit parts after)
            (by rw [PartsFit, encoded])
      | .error _ => isFalse (by rw [PartsFit, encoded]; exact id)

/-- The header list can be encoded in frames of at most the given length. -/
def HeadersFit (ctx : Context) (limit : Nat) (headers : Hpack.Headers) : Prop :=
  ∃ maxSize parts, positive ctx.settings.maxHeaderListSize = .ok maxSize ∧
    headerParts maxSize headers [] 0 = some parts ∧
      PartsFit ctx.stack ctx.settings limit parts ctx.tabEnc

/-- A frame with an encoded header list. -/
theorem encoded_eq_ok_iff {stack : Nat} {settings : Connection} {table after : Hpack.DynamicTable}
    {list : Hpack.Headers} {make : Octets → Frame} {frame : Frame} :
    Frame.encoded stack settings table list make = .ok (frame, after) ↔
      ∃ octets, Hpack.encode stack settings table list = .ok (octets, after) ∧
        octets.length < 2 ^ 24 ∧ frame = make octets := by
  constructor
  · intro done
    obtain ⟨⟨octets, table⟩, encoded, done⟩ := bind_eq_ok_iff.mp done
    simp only at done
    split at done
    · next short =>
        cases done
        exact ⟨octets, encoded, short, rfl⟩
    · cases done
  · rintro ⟨octets, encoded, short, rfl⟩
    rw [Frame.encoded, encoded, ok_bind]
    exact if_pos short

/-- A frame of a header block: its kind, its stream, and no end of the stream. -/
structure OfBlock (streamId : StreamId) (frame : Frame) : Prop where
  kind : frame.kind = .headers ∨ frame.kind = .continuation
  stream : frame.streamId = streamId
  quiet : frame.hasFlag endStreamFlag = false

/-- `End_Headers_Flag` is another flag than `End_Stream_Flag`. -/
theorem endHeaders_quiet {frame : Frame} {last : Bool}
    (flags : frame.flags = if last then endHeadersFlag else 0) :
    frame.hasFlag endStreamFlag = false := by
  rw [Frame.hasFlag, flags]
  cases last <;> decide

theorem ofBlock_createPart {stack : Nat} {settings : Connection} {table after : Hpack.DynamicTable}
    {streamId : StreamId} {list : Hpack.Headers} {isFirst last : Bool} {frame : Frame}
    (done : Frame.createPart stack settings table streamId list isFirst last = .ok (frame, after)) :
    OfBlock streamId frame := by
  unfold Frame.createPart at done
  split at done
  · obtain ⟨octets, -, -, rfl⟩ := encoded_eq_ok_iff.mp done
    exact ⟨Or.inl rfl, rfl, endHeaders_quiet rfl⟩
  · obtain ⟨octets, -, -, rfl⟩ := encoded_eq_ok_iff.mp done
    exact ⟨Or.inr rfl, rfl, endHeaders_quiet rfl⟩

/-- A part is framed exactly when it can be encoded in a payload. -/
theorem createPart_iff {stack : Nat} {settings : Connection} {table after : Hpack.DynamicTable}
    {streamId : StreamId} {list : Hpack.Headers} {isFirst last : Bool} {limit : Nat}
    (small : limit < 2 ^ 24) :
    (∃ frame, Frame.createPart stack settings table streamId list isFirst last =
      .ok (frame, after) ∧ frame.length ≤ limit) ↔
      ∃ octets, Hpack.encode stack settings table list = .ok (octets, after) ∧
        octets.length ≤ limit := by
  constructor
  · rintro ⟨frame, done, fits⟩
    unfold Frame.createPart at done
    split at done
    all_goals
      obtain ⟨octets, encoded, -, rfl⟩ := encoded_eq_ok_iff.mp done
      exact ⟨octets, encoded, fits⟩
  · rintro ⟨octets, encoded, fits⟩
    unfold Frame.createPart
    split
    all_goals
      exact ⟨_, encoded_eq_ok_iff.mpr ⟨octets, encoded, fits.trans_lt small, rfl⟩, fits⟩

/-! ## The loop -/

section Loop

variable {stack : Nat} {settings : Connection} {streamId : StreamId} {maxSize size : Nat}
  {header : Text × Text} {headers l : Hpack.Headers} {isFirst : Bool}
  {table after : Hpack.DynamicTable} {frames : List Frame}

/-- The headers that are left make the last frame. -/
theorem headerFrames_nil_of_ne (left : l ≠ []) :
    headerFrames stack settings streamId maxSize [] l size isFirst table = .ok (frames, after) ↔
      ∃ frame, frames = [frame] ∧
        Frame.createPart stack settings table streamId l true true = .ok (frame, after) := by
  rw [headerFrames, if_neg left, bind_eq_ok_iff]
  constructor
  · rintro ⟨⟨frame, last⟩, created, done⟩
    cases done
    exact ⟨frame, rfl, created⟩
  · rintro ⟨frame, rfl, created⟩
    exact ⟨(frame, after), created, rfl⟩

/-- A turn without a `Natural` size raises. -/
theorem headerFrames_cons_of_gt (large : naturalLast < size + headerSize header) :
    ∃ exn, headerFrames stack settings streamId maxSize (header :: headers) l size isFirst table =
      .error exn := by
  rw [headerFrames]
  by_cases small : headerSize header ≤ naturalLast
  · rw [positive_of_le (by simp only [headerSize]; omega) small, ok_bind, natural_of_gt large]
    exact ⟨_, rfl⟩
  · rw [positive_of_gt (not_le.mp small)]
    exact ⟨_, rfl⟩

/-- A turn that only adds a header to the part. -/
theorem headerFrames_cons_within (small : size + headerSize header ≤ naturalLast)
    (within : ¬maxSize < size + headerSize header) :
    headerFrames stack settings streamId maxSize (header :: headers) l size isFirst table =
      headerFrames stack settings streamId maxSize headers (l ++ [header])
        (size + headerSize header) isFirst table := by
  rw [headerFrames, positive_of_le (by simp only [headerSize]; omega) (by omega), ok_bind,
    natural_of_le small, ok_bind, if_neg within]

/-- A turn that completes a part. -/
theorem headerFrames_cons_over (small : size + headerSize header ≤ naturalLast)
    (beyond : maxSize < size + headerSize header) :
    headerFrames stack settings streamId maxSize (header :: headers) l size isFirst table =
        .ok (frames, after) ↔
      ∃ frame middle rest, frames = frame :: rest ∧
        Frame.createPart stack settings table streamId l isFirst
          (headers = []) = .ok (frame, middle) ∧
        headerFrames stack settings streamId maxSize headers [header]
          (headerSize header) false middle = .ok (rest, after) := by
  rw [headerFrames, positive_of_le (by simp only [headerSize]; omega) (by omega), ok_bind,
    natural_of_le small, ok_bind, if_pos beyond, bind_eq_ok_iff]
  constructor
  · rintro ⟨⟨frame, middle⟩, created, done⟩
    obtain ⟨⟨rest, last⟩, later, done⟩ := bind_eq_ok_iff.mp done
    cases done
    exact ⟨frame, middle, rest, rfl, created, later⟩
  · rintro ⟨frame, middle, rest, rfl, created, later⟩
    refine ⟨(frame, middle), created, ?_⟩
    simp [later]

end Loop

/-- Every frame of the loop belongs to a header block of the stream. -/
theorem headerFrames_ofBlock {stack : Nat} {settings : Connection} {streamId : StreamId}
    {maxSize : Nat} {headers : Hpack.Headers} :
    ∀ {l : Hpack.Headers} {size : Nat} {isFirst : Bool} {table after : Hpack.DynamicTable}
      {frames : List Frame},
      headerFrames stack settings streamId maxSize headers l size isFirst table =
        .ok (frames, after) →
      ∀ frame ∈ frames, OfBlock streamId frame := by
  induction headers with
  | nil =>
      intro l size isFirst table after frames done
      by_cases left : l = []
      · rw [headerFrames, if_pos left] at done
        cases done
        simp
      · obtain ⟨frame, rfl, created⟩ := (headerFrames_nil_of_ne left).mp done
        simpa using ofBlock_createPart created
  | cons header headers ih =>
      intro l size isFirst table after frames done
      by_cases small : size + headerSize header ≤ naturalLast
      · by_cases beyond : maxSize < size + headerSize header
        · obtain ⟨frame, middle, rest, rfl, created, later⟩ :=
            (headerFrames_cons_over small beyond).mp done
          simpa using And.intro (ofBlock_createPart created) (ih later)
        · rw [headerFrames_cons_within small beyond] at done
          exact ih done
      · obtain ⟨exn, raised⟩ : ∃ exn, headerFrames stack settings streamId maxSize
          (header :: headers) l
            size isFirst table = .error exn := headerFrames_cons_of_gt (not_le.mp small)
        rw [raised] at done
        cases done

/-- The loop frames a header list in frames up to a length exactly when its parts fit. -/
theorem headerFrames_fit_iff {stack : Nat} {settings : Connection} {streamId : StreamId}
    {maxSize limit : Nat} (small : limit < 2 ^ 24) {headers : Hpack.Headers} :
    ∀ {l : Hpack.Headers} {size : Nat} {isFirst : Bool} {table : Hpack.DynamicTable},
      (∃ frames after,
        headerFrames stack settings streamId maxSize headers l size isFirst table =
          .ok (frames, after) ∧ ∀ frame ∈ frames, frame.length ≤ limit) ↔
        ∃ parts, headerParts maxSize headers l size = some parts ∧
          PartsFit stack settings limit parts table := by
  induction headers with
  | nil =>
      intro l size isFirst table
      by_cases left : l = []
      · simp [headerFrames, headerParts, left, PartsFit]
      · simp only [headerFrames_nil_of_ne left, headerParts, if_neg left, Option.some.injEq,
          exists_eq_left', partsFit_cons_iff, partsFit_nil, and_true]
        constructor
        · rintro ⟨frames, after, ⟨frame, rfl, created⟩, fits⟩
          obtain ⟨octets, encoded, short⟩ :=
            (createPart_iff small).mp ⟨frame, created, fits frame List.mem_cons_self⟩
          exact ⟨octets, after, encoded, short⟩
        · rintro ⟨octets, after, encoded, short⟩
          obtain ⟨frame, created, fits⟩ := (createPart_iff small).mpr ⟨octets, encoded, short⟩
          exact ⟨[frame], after, ⟨frame, rfl, created⟩, by simpa using fits⟩
  | cons header headers ih =>
      intro l size isFirst table
      rw [headerParts]
      by_cases natural_size : size + headerSize header ≤ naturalLast
      · rw [if_pos natural_size]
        by_cases beyond : maxSize < size + headerSize header
        · rw [if_pos beyond]
          simp only [headerFrames_cons_over natural_size beyond, Option.map_eq_some_iff]
          constructor
          · rintro ⟨frames, after, ⟨frame, middle, rest, rfl, created, later⟩, fits⟩
            obtain ⟨octets, encoded, short⟩ :=
              (createPart_iff small).mp ⟨frame, created, fits frame List.mem_cons_self⟩
            obtain ⟨parts, parts_eq, parts_fit⟩ := ih.mp
              ⟨rest, after, later, fun frame member => fits frame (List.mem_cons_of_mem _ member)⟩
            exact ⟨l :: parts, ⟨parts, parts_eq, rfl⟩,
              partsFit_cons_iff.mpr ⟨octets, middle, encoded, short, parts_fit⟩⟩
          · rintro ⟨parts, ⟨rest_parts, parts_eq, rfl⟩, fit⟩
            obtain ⟨octets, middle, encoded, short, parts_fit⟩ := partsFit_cons_iff.mp fit
            obtain ⟨frame, created, fits⟩ := (createPart_iff small).mpr ⟨octets, encoded, short⟩
            obtain ⟨rest, after, later, rest_fit⟩ := ih.mpr ⟨rest_parts, parts_eq, parts_fit⟩
            exact ⟨frame :: rest, after, ⟨frame, middle, rest, rfl, created, later⟩,
              by simpa using And.intro fits rest_fit⟩
        · rw [if_neg beyond]
          simp only [headerFrames_cons_within natural_size beyond]
          exact ih
      · obtain ⟨exn, raised⟩ : ∃ exn, headerFrames stack settings streamId maxSize
          (header :: headers) l
            size isFirst table = .error exn := headerFrames_cons_of_gt (not_le.mp natural_size)
        simp [raised, natural_size]

end Http2
end AdaWebServer
