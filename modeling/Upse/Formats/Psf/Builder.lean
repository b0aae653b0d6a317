import Mathlib.Data.List.Chain
import Mathlib.Data.List.TakeWhile
import Upse.Formats.Psf.Container

/-!
# Writing PSF containers

The encoder of the fixtures, and that parsing a container it built gives the parts back.
-/

namespace Upse.Psf

/-- Builder for small conformance fixtures. -/
structure PsfBuilder where
  version : PsfVersion
  reserved : Bytes
  program : Bytes
  tags : List (Str × Str)

/-- One raw text tag line, without its end. -/
def tagLine (tag : Str × Str) : Bytes := tag.1 ++ equalsSign :: tag.2

/-- The lines of all tags. -/
def tagText (tags : List (Str × Str)) : Bytes := tags.flatMap fun tag => tagLine tag ++ [newline]

namespace PsfBuilder

variable (codecs : Codecs) (deflate : Bytes → Bytes)

/-- The program as the file holds it. -/
def compressed (builder : PsfBuilder) : Bytes :=
  if builder.program.isEmpty then [] else deflate builder.program

/-- Encodes a container. -/
def build (builder : PsfBuilder) : Bytes :=
  let compressed := builder.compressed deflate
  ascii "PSF" ++ [builder.version.byte] ++ leBytes 4 builder.reserved.length ++
    leBytes 4 compressed.length ++ leBytes 4 (codecs.crc compressed) ++ builder.reserved ++
    compressed ++ if builder.tags.isEmpty then [] else tagMarker ++ tagText builder.tags

end PsfBuilder

/-! ### Lines -/

section Lines

variable {key value : Bytes} {byte : Byte}

/-- A byte of a C identifier. -/
def isIdentifierByte (byte : Byte) : Bool :=
  isAsciiAlphabetic byte || isAsciiDigit byte || byte == underscore

theorem identifierByte (byte : Byte) : isIdentifierByte byte = true →
    byte ≠ equalsSign ∧ byte ≠ newline ∧ byte ≠ 0 ∧ isBlank byte = false ∧ byte < 0x80 := by
  revert byte
  decide +kernel

theorem identifierByte_of_mem (h : validIdentifier key = true) (mem : byte ∈ key) :
    isIdentifierByte byte = true := by
  cases key with
  | nil => cases h
  | cons first rest =>
    obtain ⟨head, tail⟩ := Bool.and_eq_true _ _ |>.mp h
    rcases List.mem_cons.mp mem with rfl | mem
    · unfold isIdentifierByte
      rcases Bool.or_eq_true _ _ |>.mp head with letter | line
      · rw [letter]
        rfl
      · rw [line, Bool.or_true]
    · exact List.all_eq_true.mp tail byte mem

/-- A value that a line gives back as it is. -/
structure LineValue (value : Bytes) : Prop where
  valid : validUtf8 value = true
  noNull : 0 ∉ value
  noNewline : newline ∉ value
  start : ∀ byte ∈ value.head?, isBlank byte = false
  stop : ∀ byte ∈ value.getLast?, isBlank byte = false

theorem trimWhitespace_eq_self (start : ∀ byte ∈ value.head?, isBlank byte = false)
    (stop : ∀ byte ∈ value.getLast?, isBlank byte = false) : trimWhitespace value = value := by
  unfold trimWhitespace
  have front : value.dropWhile isBlank = value := by
    cases value with
    | nil => rfl
    | cons first rest => exact List.dropWhile_cons_of_neg (by simp [start first rfl])
  rw [front, List.rdropWhile_eq_self_iff]
  intro nonempty
  rw [stop _ (List.getLast?_eq_some_getLast nonempty)]
  decide

theorem trimWhitespace_key (h : validIdentifier key = true) : trimWhitespace key = key := by
  have plain (byte : Byte) (mem : byte ∈ key) : isBlank byte = false :=
    (identifierByte byte (identifierByte_of_mem h mem)).2.2.2.1
  exact trimWhitespace_eq_self (fun byte mem => plain byte (List.mem_of_mem_head? mem))
    fun byte mem => plain byte (List.mem_of_getLast? mem)

theorem trimWhitespace_line (h : validIdentifier key = true) (line : LineValue value) :
    trimWhitespace (tagLine (key, value)) = tagLine (key, value) := by
  apply trimWhitespace_eq_self
  · intro byte mem
    cases key with
    | nil => cases h
    | cons first rest =>
      obtain rfl := Option.some.inj mem
      exact (identifierByte _ (identifierByte_of_mem h List.mem_cons_self)).2.2.2.1
  · intro byte mem
    unfold tagLine at mem
    rw [List.getLast?_append, List.getLast?_cons] at mem
    cases last : value.getLast? with
    | none =>
      rw [last] at mem
      obtain rfl := Option.some.inj mem
      decide
    | some final =>
      rw [last] at mem
      obtain rfl := Option.some.inj mem
      exact line.stop _ last

theorem findIdx_line (h : validIdentifier key = true) :
    (tagLine (key, value)).findIdx? (· == equalsSign) = some key.length := by
  have absent : key.findIdx? (· == equalsSign) = none := by
    rw [List.findIdx?_eq_none_iff]
    intro byte mem
    exact beq_eq_false_iff_ne.mpr (identifierByte byte (identifierByte_of_mem h mem)).1
  unfold tagLine
  rw [List.findIdx?_append, absent]
  simp [List.findIdx?_cons]

/-- The tag of a key and a value. -/
def tagOf (tag : Str × Str) : Tag := ⟨tag.1, tag.2, tag.1, tag.2⟩

theorem addLine_fresh {entries : List Tag} (h : validIdentifier key = true) (line : LineValue value)
    (fresh : ∀ previous ∈ entries.getLast?, eqIgnoreAsciiCase previous.key key = false) :
    Tags.addLine entries key value = entries ++ [tagOf (key, value)] := by
  have keyText : fromUtf8Lossy key = key := fromUtf8Lossy_of_valid (wellFormed_of_ascii le_rfl
    fun byte mem => (identifierByte byte (identifierByte_of_mem h mem)).2.2.2.2)
  unfold Tags.addLine
  rw [keyText, fromUtf8Lossy_of_valid line.valid]
  dsimp only
  cases last : entries.getLast? with
  | none => rfl
  | some previous =>
    dsimp only
    rw [fresh previous last]
    rfl

/-- Tags that the parser gives back one by one. -/
structure LineTags (tags : List (Str × Str)) : Prop where
  keys : ∀ tag ∈ tags, validIdentifier tag.1 = true
  values : ∀ tag ∈ tags, LineValue tag.2
  distinct : tags.IsChain fun tag next => eqIgnoreAsciiCase tag.1 next.1 = false

variable {tags : List (Str × Str)}

theorem LineTags.tail {tag : Str × Str} (h : LineTags (tag :: tags)) :
    LineTags tags :=
  ⟨fun other mem => h.keys other (List.mem_cons_of_mem _ mem),
    fun other mem => h.values other (List.mem_cons_of_mem _ mem), h.distinct.tail⟩

theorem parseLines_tags (origin : Str) (base : ℕ) {entries : List Tag}
    (start : ℕ) (h : LineTags tags)
    (fresh : ∀ previous ∈ entries.getLast?, ∀ tag ∈ tags.head?,
      eqIgnoreAsciiCase previous.key tag.1 = false) :
    Tags.parseLines origin base start (tags.map tagLine ++ [[]]) entries =
      .ok (entries ++ tags.map tagOf) := by
  induction tags generalizing start entries with
  | nil =>
    simp only [List.map_nil, List.append_nil]
    rfl
  | cons tag tags ih =>
    obtain ⟨key, value⟩ := tag
    have valid := h.keys _ List.mem_cons_self
    have line := h.values _ List.mem_cons_self
    have nonempty : (tagLine (key, value)).isEmpty = false := by
      cases key <;> rfl
    have taken : (tagLine (key, value)).take key.length = key := List.take_left' rfl
    have dropped : (tagLine (key, value)).drop (key.length + 1) = value := by
      unfold tagLine
      rw [List.append_cons]
      exact List.drop_left' (by simp)
    rw [List.map_cons, List.cons_append, Tags.parseLines, trimWhitespace_line valid line]
    dsimp only
    rw [nonempty, findIdx_line valid]
    dsimp only
    rw [taken, dropped, trimWhitespace_key valid, trimWhitespace_eq_self line.start line.stop,
      if_pos valid, addLine_fresh valid line fun previous last => fresh previous last _ rfl]
    refine (ih _ h.tail ?_).trans ?_
    · intro previous last next first
      rw [List.getLast?_append, List.getLast?_singleton] at last
      obtain rfl := Option.some.inj last
      cases tags with
      | nil => cases first
      | cons other tags =>
        obtain rfl := Option.some.inj first
        exact List.isChain_cons_cons.mp h.distinct |>.1
    · rw [List.append_assoc]
      rfl

theorem splitOn_tagText (h : LineTags tags) :
    (tagText tags).splitOn newline = tags.map tagLine ++ [[]] := by
  induction tags with
  | nil => rfl
  | cons tag tags ih =>
    have noNewline : newline ∉ tagLine tag := by
      unfold tagLine
      rw [List.mem_append, List.mem_cons]
      rintro (mem | same | mem)
      · exact (identifierByte newline
          (identifierByte_of_mem (h.keys tag List.mem_cons_self) mem)).2.1 rfl
      · exact absurd same (by decide)
      · exact (h.values tag List.mem_cons_self).noNewline mem
    have text : tagText (tag :: tags) = tagLine tag ++ newline :: tagText tags := by
      unfold tagText
      rw [List.flatMap_cons, List.append_assoc]
      rfl
    rw [text, List.splitOn_append_cons_self, List.splitOn_eq_singleton noNewline, ih h.tail]
    rfl

theorem parse_tagText (origin : Str) (base : ℕ) (h : LineTags tags) :
    Tags.parse origin (tagText tags) base = .ok ⟨tags.map tagOf⟩ := by
  have noNull : (tagText tags).findIdx? (· == 0) = none := by
    rw [List.findIdx?_eq_none_iff]
    intro byte mem
    apply beq_eq_false_iff_ne.mpr
    rintro rfl
    obtain ⟨tag, listed, mem⟩ := List.mem_flatMap.mp mem
    unfold tagLine at mem
    rw [List.mem_append, List.mem_append, List.mem_cons, List.mem_singleton] at mem
    rcases mem with (mem | same | mem) | same
    · exact (identifierByte 0 (identifierByte_of_mem (h.keys tag listed) mem)).2.2.1 rfl
    · exact absurd same (by decide)
    · exact (h.values tag listed).noNull mem
    · exact absurd same (by decide)
  unfold Tags.parse
  rw [noNull, splitOn_tagText h]
  dsimp only
  rw [parseLines_tags origin base 0 h (by exact nofun)]
  rfl

end Lines

/-! ### Containers -/

section Containers

variable {codecs : Codecs} {deflate : Bytes → Bytes} {origin : Str} {block : Bytes}

/-- Inflating undoes deflating a block, and takes all of a stream that is not empty. -/
structure Inverts (codecs : Codecs) (deflate : Bytes → Bytes) (block : Bytes) : Prop where
  nonempty : deflate block ≠ []
  blocks : (codecs.inflate (deflate block)).blocks.flatten = block
  consumed : (codecs.inflate (deflate block)).outcome = .ok (deflate block).length

theorem readBlocks_flatten {limit : ℕ} {output : Bytes} {blocks : List Bytes}
    (fits : output.length + blocks.flatten.length ≤ limit) :
    readBlocks limit output blocks = .ok (output ++ blocks.flatten) := by
  induction blocks generalizing output with
  | nil => simp [readBlocks]
  | cons block blocks ih =>
    rw [List.flatten_cons, List.length_append] at fits
    rw [readBlocks, if_neg (by omega), ih (by rw [List.length_append]; omega), List.flatten_cons,
      List.append_assoc]

theorem decompress_deflate {offset limit : ℕ} {program : Bytes}
    (inverts : program ≠ [] → Inverts codecs deflate program) (fits : program.length ≤ limit) :
    decompress codecs origin (if program.isEmpty then [] else deflate program) offset limit =
      .ok program := by
  by_cases empty : program = []
  · rw [empty]
    rfl
  · have inverted := inverts empty
    have some : program.isEmpty = false := List.isEmpty_eq_false_iff.mpr empty
    have stream : (deflate program).isEmpty = false := List.isEmpty_eq_false_iff.mpr inverted.nonempty
    unfold decompress
    rw [some]
    dsimp only
    rw [if_neg Bool.false_ne_true, stream, if_neg Bool.false_ne_true, readBlocks_flatten,
      inverted.blocks, inverted.consumed]
    · dsimp only
      rw [if_neg (by simp)]
      rfl
    · rw [inverted.blocks]
      simpa using fits

theorem parseTagSection_tags {front : Bytes} {limits : ParseLimits} {tags : List (Str × Str)}
    {programEnd : ℕ} (at_end : front.length = programEnd) (lines : LineTags tags)
    (fits : (tagText tags).length ≤ limits.maxTagBytes) :
    parseTagSection origin (front ++ (tagMarker ++ tagText tags)) limits programEnd =
      .ok (⟨tags.map tagOf⟩, some ⟨programEnd + tagMarker.length,
        programEnd + tagMarker.length + (tagText tags).length⟩) := by
  have total : (front ++ (tagMarker ++ tagText tags)).length =
      programEnd + tagMarker.length + (tagText tags).length := by
    rw [List.length_append, List.length_append, at_end, Nat.add_assoc]
  have marker : tagMarker.length = 5 := by decide
  have found : slice (front ++ (tagMarker ++ tagText tags)) programEnd
      (programEnd + tagMarker.length) = tagMarker := slice_append at_end rfl
  have text : (front ++ (tagMarker ++ tagText tags)).drop (programEnd + tagMarker.length) =
      tagText tags := by
    rw [← List.append_assoc]
    exact List.drop_left' (by rw [List.length_append, at_end])
  unfold parseTagSection
  rw [total]
  dsimp only
  rw [if_neg (by omega), found, if_neg (by rw [not_or]; exact ⟨by omega, not_not.mpr rfl⟩), text,
    if_neg (by omega), parse_tagText origin _ lines]
  rfl

/-- The container that parsing a built one gives. -/
def PsfBuilder.container (builder : PsfBuilder) (deflate : Bytes → Bytes) : PsfContainer :=
  let reservedEnd := headerSize + builder.reserved.length
  let programEnd := reservedEnd + (builder.compressed deflate).length
  let tagStart := programEnd + tagMarker.length
  { version := builder.version
    reserved := builder.reserved
    compressedProgram := builder.compressed deflate
    program := builder.program
    tags := ⟨builder.tags.map tagOf⟩
    reservedRange := ⟨headerSize, reservedEnd⟩
    compressedRange := ⟨reservedEnd, programEnd⟩
    tagRange :=
      if builder.tags.isEmpty then none else some ⟨tagStart, tagStart + (tagText builder.tags).length⟩ }

/-- A builder whose container is within the limits of the format and of the parser. -/
structure PsfBuilder.Fits (builder : PsfBuilder) (codecs : Codecs) (deflate : Bytes → Bytes)
    (limits : ParseLimits) : Prop where
  reserved : builder.reserved.length < 2 ^ 32
  compressed : (builder.compressed deflate).length < 2 ^ 32
  maxInput : (builder.build codecs deflate).length ≤ limits.maxInputBytes
  maxReserved : builder.reserved.length ≤ limits.maxReservedBytes
  maxProgram : builder.program.length ≤ limits.maxDecompressedBytes
  maxPsf1Program : builder.version = .psf1 → builder.program.length ≤ psf1MaxProgram
  maxTags : (tagText builder.tags).length ≤ limits.maxTagBytes

/-- The header before the sections. -/
def PsfBuilder.header (builder : PsfBuilder) (codecs : Codecs) (deflate : Bytes → Bytes) : Bytes :=
  ascii "PSF" ++ [builder.version.byte] ++ leBytes 4 builder.reserved.length ++
    leBytes 4 (builder.compressed deflate).length ++ leBytes 4 (codecs.crc (builder.compressed deflate))

theorem PsfBuilder.length_header (builder : PsfBuilder) (codecs : Codecs)
    (deflate : Bytes → Bytes) :
    (builder.header codecs deflate).length = headerSize := by
  unfold header
  simp only [List.length_append, length_leBytes, List.length_singleton]
  rfl

/-- The tag section of a builder. -/
def PsfBuilder.tagSection (builder : PsfBuilder) : Bytes :=
  if builder.tags.isEmpty then [] else tagMarker ++ tagText builder.tags

theorem PsfBuilder.build_eq (builder : PsfBuilder) (codecs : Codecs) (deflate : Bytes → Bytes) :
    builder.build codecs deflate = builder.header codecs deflate ++
      (builder.reserved ++ (builder.compressed deflate ++ builder.tagSection)) := by
  unfold build header tagSection
  simp only [List.append_assoc]

theorem PsfBuilder.length_build (builder : PsfBuilder) (codecs : Codecs) (deflate : Bytes → Bytes) :
    (builder.build codecs deflate).length = headerSize + builder.reserved.length +
      (builder.compressed deflate).length + builder.tagSection.length := by
  rw [build_eq, List.length_append, List.length_append, List.length_append, length_header]
  omega

theorem PsfBuilder.parse_tagSection (builder : PsfBuilder) (codecs : Codecs)
    (deflate : Bytes → Bytes) (origin : Str) {limits : ParseLimits}
    (lines : LineTags builder.tags) (fits : (tagText builder.tags).length ≤ limits.maxTagBytes) :
    parseTagSection origin (builder.build codecs deflate) limits
        (headerSize + builder.reserved.length + (builder.compressed deflate).length) =
      .ok ((builder.container deflate).tags, (builder.container deflate).tagRange) := by
  unfold container
  dsimp only
  by_cases none : builder.tags = []
  · rw [none]
    have total : headerSize + builder.reserved.length + (builder.compressed deflate).length =
        (builder.build codecs deflate).length := by
      rw [length_build, tagSection, none]
      rfl
    unfold parseTagSection
    rw [if_pos total]
    rfl
  · have present : builder.tags.isEmpty = false := List.isEmpty_eq_false_iff.mpr none
    rw [build_eq, tagSection, present, if_neg Bool.false_ne_true, if_neg Bool.false_ne_true,
      ← List.append_assoc, ← List.append_assoc]
    apply parseTagSection_tags _ lines fits
    rw [List.length_append, List.length_append, length_header]

/-- Parsing what was built gives the parts back, in ranges that follow each other up to the end. -/
theorem parse_build (codecs : Codecs) (deflate : Bytes → Bytes) (origin : Str) (limits : ParseLimits)
    (builder : PsfBuilder) (crc32 : ∀ bytes, codecs.crc bytes < 2 ^ 32)
    (inverts : builder.program ≠ [] → Inverts codecs deflate builder.program)
    (lines : LineTags builder.tags) (fits : builder.Fits codecs deflate limits) :
    parseWithLimits codecs origin (builder.build codecs deflate) limits =
        .ok (builder.container deflate) ∧
      (builder.build codecs deflate).length =
        match (builder.container deflate).tagRange with
        | none => (builder.container deflate).compressedRange.stop
        | some range => range.stop := by
  have parsedTags := builder.parse_tagSection codecs deflate origin lines fits.maxTags
  have total := builder.length_build codecs deflate
  have input := builder.build_eq codecs deflate
  -- The three words of the header, each after what is before it.
  have reservedLen : wordAt (builder.build codecs deflate) 4 = builder.reserved.length := by
    have parts : builder.build codecs deflate = (ascii "PSF" ++ [builder.version.byte]) ++
        (leBytes 4 builder.reserved.length ++ (leBytes 4 (builder.compressed deflate).length ++
          (leBytes 4 (codecs.crc (builder.compressed deflate)) ++
            (builder.reserved ++ (builder.compressed deflate ++ builder.tagSection))))) := by
      rw [input, PsfBuilder.header]
      simp only [List.append_assoc]
    rw [parts]
    exact wordAt_append rfl fits.reserved
  have compressedLen : wordAt (builder.build codecs deflate) 8 =
      (builder.compressed deflate).length := by
    have parts : builder.build codecs deflate =
        (ascii "PSF" ++ [builder.version.byte] ++ leBytes 4 builder.reserved.length) ++
          (leBytes 4 (builder.compressed deflate).length ++
            (leBytes 4 (codecs.crc (builder.compressed deflate)) ++
              (builder.reserved ++ (builder.compressed deflate ++ builder.tagSection)))) := by
      rw [input, PsfBuilder.header]
      simp only [List.append_assoc]
    rw [parts]
    exact wordAt_append rfl fits.compressed
  have checksum : wordAt (builder.build codecs deflate) 12 =
      codecs.crc (builder.compressed deflate) := by
    have parts : builder.build codecs deflate =
        (ascii "PSF" ++ [builder.version.byte] ++ leBytes 4 builder.reserved.length ++
          leBytes 4 (builder.compressed deflate).length) ++
          (leBytes 4 (codecs.crc (builder.compressed deflate)) ++
            (builder.reserved ++ (builder.compressed deflate ++ builder.tagSection))) := by
      rw [input, PsfBuilder.header]
      simp only [List.append_assoc]
    rw [parts]
    exact wordAt_append rfl (crc32 _)
  have reserved : slice (builder.build codecs deflate) headerSize
      (headerSize + builder.reserved.length) = builder.reserved := by
    rw [input]
    exact slice_append (builder.length_header codecs deflate) rfl
  have program : slice (builder.build codecs deflate) (headerSize + builder.reserved.length)
      (headerSize + builder.reserved.length + (builder.compressed deflate).length) =
        builder.compressed deflate := by
    rw [input, ← List.append_assoc]
    exact slice_append (by rw [List.length_append, builder.length_header codecs deflate]) rfl
  have limit : builder.program.length ≤
      if builder.version = .psf1 then min limits.maxDecompressedBytes psf1MaxProgram
      else limits.maxDecompressedBytes := by
    split
    next psf1 => exact le_min fits.maxProgram (fits.maxPsf1Program psf1)
    next => exact fits.maxProgram
  have inflated : decompress codecs origin (builder.compressed deflate)
      (headerSize + builder.reserved.length)
      (if builder.version = .psf1 then min limits.maxDecompressedBytes psf1MaxProgram
      else limits.maxDecompressedBytes) = .ok builder.program := decompress_deflate inverts limit
  have signature : (builder.build codecs deflate).take 3 = ascii "PSF" := rfl
  have versionByte : (builder.build codecs deflate).getD 3 0 = builder.version.byte := rfl
  constructor
  · unfold parseWithLimits
    rw [if_neg (not_lt.mpr fits.maxInput), if_neg (by omega), if_neg (not_not.mpr signature),
      versionByte, PsfVersion.fromByte_byte, reservedLen, compressedLen, checksum]
    show (if limits.maxReservedBytes < builder.reserved.length then _ else _) = _
    rw [if_neg (not_lt.mpr fits.maxReserved)]
    dsimp only
    rw [if_neg (by omega), program, if_neg (not_not.mpr rfl), parsedTags, inflated,
      reserved]
    rfl
  · unfold PsfBuilder.container
    dsimp only
    rw [total]
    unfold PsfBuilder.tagSection
    by_cases none : builder.tags = []
    · rw [none]
      rfl
    · have present : builder.tags.isEmpty = false := List.isEmpty_eq_false_iff.mpr none
      rw [present, if_neg Bool.false_ne_true, if_neg Bool.false_ne_true, List.length_append,
        ← Nat.add_assoc]

/-- The zlib stream of the text of a tag marker. -/
def markerStream : Bytes :=
  [0x78, 0x9c, 0x8b, 0x0e, 0x71, 0x74, 0x8f, 0x05, 0x00, 0x04, 0xca, 0x01, 0x95]

/-- Codecs that know this one stream. -/
def markerCodecs : Codecs where
  inflate stream :=
    if stream = markerStream then ⟨[tagMarker], .ok 13⟩ else ⟨[], .error "corrupt deflate stream"⟩
  crc bytes := if bytes = markerStream then 0xa72a3581 else 0

theorem parse_build_sample :
    let builder : PsfBuilder :=
      ⟨.psf1, [1, 2], tagMarker, [(ascii "title", ascii "a=b"), (ascii "Title2", [])]⟩
    parseWithLimits markerCodecs (ascii "root") (builder.build markerCodecs fun _ => markerStream)
        ⟨100, 2, 5, 100⟩ = .ok (builder.container fun _ => markerStream) ∧
      (builder.build markerCodecs fun _ => markerStream).length = 54 := by
  intro builder
  have crc32 (bytes : Bytes) : markerCodecs.crc bytes < 2 ^ 32 := by
    show (if bytes = markerStream then _ else _) < _
    split <;> decide
  have values : ∀ tag ∈ builder.tags, LineValue tag.2 := by
    intro tag mem
    rcases List.mem_pair.mp mem with rfl | rfl
    · exact ⟨by decide, by decide, by decide, by decide, by decide⟩
    · exact ⟨by decide, by decide, by decide, by decide, by decide⟩
  have parsed := parse_build markerCodecs (fun _ => markerStream) (ascii "root") ⟨100, 2, 5, 100⟩
    builder crc32 (fun _ => ⟨by decide, by decide, by rfl⟩)
    ⟨by decide, values, by decide⟩
    ⟨by decide, by decide, by decide, by decide, by decide, by decide, by decide⟩
  exact ⟨parsed.1, by decide⟩

end Containers

end Upse.Psf
