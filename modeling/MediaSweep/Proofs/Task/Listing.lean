import MediaSweep.Proofs.Json.RoundTrip
import MediaSweep.Proofs.Settings.Shown
import MediaSweep.Proofs.Sheet.Blocks

/-!
# The listing for programs

A run that lists the media blocks of a file for programs prints an array with an object for each
block.  What a program reads in it are the blocks, one for one and in their order, with every
character of their queries, and no other blocks are listed by this text (`listing_read_back`).  Line
numbers count from one there, the blocks stand apart, none reaches past the last line, and a query
is found in the line that its block is said to start at.
-/

namespace MediaSweep

set_option autoImplicit false

open Disk (Run)

/-- What the listing tells of a block, with lines counted from one. -/
@[ext]
structure ListedBlock where
  startLine : Nat
  endLine : Nat
  /-- The number of lines. -/
  lines : Nat
  query : String
  depth : Int
  closed : Bool

namespace ListedBlock

/-- The object that tells it. -/
def term (l : ListedBlock) : JsonTerm :=
  .object
    [("start_line", .number (l.startLine : Int)), ("end_line", .number (l.endLine : Int)),
      ("lines", .number (l.lines : Int)), ("query", .string l.query), ("depth", .number l.depth),
      ("closed", .boolean l.closed)]

theorem term_injective : Function.Injective term := by
  intro l l' same
  simp only [term, JsonTerm.object.injEq, List.cons.injEq, Prod.mk.injEq, JsonTerm.number.injEq,
    JsonTerm.string.injEq, JsonTerm.boolean.injEq, Rat.intCast_inj, true_and, and_true,
    Nat.cast_inj] at same
  obtain ⟨starts, ends, counts, queries, depths, closings⟩ := same
  exact ListedBlock.ext starts ends counts queries depths closings

end ListedBlock

namespace MediaBlock

/-- What is to be told of a block. -/
def listed (b : MediaBlock) : ListedBlock where
  startLine := b.span.first + 1
  endLine := b.span.last + 1
  lines := (b.span.last + 1) - (b.span.first + 1) + 1
  query := b.query
  depth := b.depth
  closed := b.closed

/-- A block is known by what is told of it. -/
theorem listed_injective : Function.Injective listed := by
  intro b b' same
  obtain ⟨span, query, depth, closed⟩ := b
  obtain ⟨span', query', depth', closed'⟩ := b'
  simp only [listed, ListedBlock.mk.injEq, Nat.add_right_cancel_iff] at same
  obtain ⟨firsts, lasts, -, rfl, rfl, rfl⟩ := same
  rw [Span.eq_of_ends firsts lasts]

theorem term_toJson (b : MediaBlock) : b.toJson.term = b.listed.term := by
  have count : b.span.size = b.listed.lines := by
    have := b.span.first_le_last
    simp only [Span.size, listed]
    omega
  simp only [toJson, JsonValue.term, ListedBlock.term, List.map_cons, List.map_nil, count]
  rfl

end MediaBlock

/-- **A listing is read as what was to be told of its blocks**, in their order. -/
theorem ofText?_blockListing (blocks : List MediaBlock) :
    JsonTerm.ofText? (blockListing blocks ++ "\n") =
      some (.array ((blocks.map MediaBlock.listed).map ListedBlock.term)) := by
  have read := JsonTerm.ofText?_print (.array (blocks.map MediaBlock.toJson)) "\n"
    (by simp [JsonTerm.isSpace])
  have terms : ((blocks.map MediaBlock.toJson).map JsonValue.term) =
      (blocks.map MediaBlock.listed).map ListedBlock.term := by
    rw [List.map_map, List.map_map]
    exact List.map_congr_left fun b _ => b.term_toJson
  rw [blockListing, read, JsonValue.term, terms]

/-- Different blocks have different listings. -/
theorem eq_of_blockListing_eq {blocks others : List MediaBlock}
    (same : blockListing blocks ++ "\n" = blockListing others ++ "\n") : blocks = others := by
  have read := ofText?_blockListing blocks
  rw [same, ofText?_blockListing others, Option.some_inj, JsonTerm.array.injEq,
    List.map_inj_right ListedBlock.term_injective,
    List.map_inj_right MediaBlock.listed_injective] at read
  exact read.symm

/-- The listed blocks of a sheet stand apart, from top to bottom. -/
theorem pairwise_listed (lines : List String) :
    ((mediaBlocks lines).map MediaBlock.listed).Pairwise
      fun earlier later => earlier.endLine < later.startLine := by
  rw [List.pairwise_map]
  refine (blocksFrom_mediaBlocks lines).ordered.imp fun {earlier later} apart => ?_
  exact Nat.succ_lt_succ apart

/-- A run that lists a file for programs prints the listing of its blocks. -/
theorem Invocation.run_locate {i : Invocation} {context : Context} {d : Disk} {file : Path}
    {text : String} (locates : i.command = .locate file true)
    (held : d.readBytes file = .ok text.toUTF8) :
    (i.run context : Run Report) d =
      (.done [.raw (blockListing (mediaBlocks (Text.toLines text)))], d) := by
  have reading : (d.readBytes file).bind FileSystem.decode = .ok text := by
    rw [held]
    exact decode_toUTF8 text
  rw [run, locates]
  dsimp only
  rw [runLocate, run_bind (run_readText file d), reading]
  rfl

/-- **Nothing is lost in the listing for programs.**  For every file with a text, a run that lists
its blocks prints an array with one object for each block, in their order, and no other blocks are
printed like this; the disk stays as it is.  The objects start behind the ones before, and each
stays within the sheet and has for its query what stands in its first line. -/
theorem listing_read_back (context : Context) {words : List String} {i : Invocation} {file : Path}
    {d : Disk} {text : String} (asked : Invocation.ofWords words = .ok i)
    (locates : i.command = .locate file true) (held : d.readBytes file = .ok text.toUTF8) :
    let lines := Text.toLines text
    let listed := (mediaBlocks lines).map MediaBlock.listed
    ∃ output, (runCleaner context words : Run Outcome) d = (⟨0, output, ""⟩, d) ∧
      JsonTerm.ofText? output = some (.array (listed.map ListedBlock.term)) ∧
      (∀ blocks, blockListing blocks ++ "\n" = output → blocks = mediaBlocks lines) ∧
      (listed.Pairwise fun earlier later => earlier.endLine < later.startLine) ∧
      ∀ l ∈ listed, l.startLine ≤ l.endLine ∧ l.endLine ≤ lines.length ∧
        l.lines = l.endLine - l.startLine + 1 ∧
        ∃ line, lines[l.startLine - 1]? = some line ∧ l.query = Text.trim line := by
  intro lines listed
  refine ⟨blockListing (mediaBlocks lines) ++ "\n", ?_, ofText?_blockListing _,
    fun blocks same => eq_of_blockListing_eq same, pairwise_listed lines, ?_⟩
  · have output (palette : Palette) (line : String) :
        Notice.renderAll palette [.raw line] = line ++ "\n" := by
      simp [Notice.renderAll, Notice.render, String.join]
    rw [runCleaner, asked]
    dsimp only
    rw [run_bind (i.run_locate locates held)]
    change (i.outcome context (.done [.raw (blockListing (mediaBlocks lines))]), d) = _
    simp only [Invocation.outcome, Report.done, output]
  · intro l mem
    obtain ⟨b, found, rfl⟩ := List.mem_map.1 mem
    have block := isBlock_of_mem_mediaBlocks found
    obtain ⟨line, stands, _, query⟩ := block.heading
    exact ⟨Nat.succ_le_succ b.span.first_le_last, block.last_lt_length, rfl, line, stands, query⟩

/-- A sheet with a block in a rule, with a quote, a backslash, a tab, a control character and an
accent in its prelude, and with a block that is never closed. -/
def oddText : String :=
  "a \x7b\n  @media \"x\\y\"\té\x01 \x7b\n.b \x7b\x7d\n  \x7d\n\x7d\n@media z \x7b"

theorem listing_read_back_oddText :
    ∃ output,
      (runCleaner { stamp := ⟨2024, 1, 1, 0, 0, 0⟩, build := "" } ["locate", "/s", "--json"] :
        Run Outcome) (diskWith "s" oddText) = (⟨0, output, ""⟩, diskWith "s" oddText) ∧
      JsonTerm.ofText? output = some (.array
        [ListedBlock.term ⟨2, 4, 3, "@media \"x\\y\"\té\x01 \x7b", 1, true⟩,
          ListedBlock.term ⟨6, 6, 1, "@media z \x7b", 0, false⟩]) := by
  have found : (diskWith "s" oddText).find ⟨"/s"⟩ = .ok ["s"] :=
    Disk.find_eq_ok_iff.2 ⟨⟨by simp, by decide, by decide⟩, rfl, rfl⟩
  have asked : Invocation.ofWords ["locate", "/s", "--json"] =
      .ok ⟨none, false, .locate ⟨"/s"⟩ true⟩ := rfl
  obtain ⟨output, ran, read, _⟩ := listing_read_back
    { stamp := ⟨2024, 1, 1, 0, 0, 0⟩, build := "" } asked rfl
    (Disk.readBytes_of_find found rfl rfl)
  have blocks : (mediaBlocks (Text.toLines oddText)).map MediaBlock.listed =
      [⟨2, 4, 3, "@media \"x\\y\"\té\x01 \x7b", 1, true⟩,
        ⟨6, 6, 1, "@media z \x7b", 0, false⟩] := by
    rfl
  rw [blocks] at read
  exact ⟨output, ran, read⟩

end MediaSweep
