import MediaSweep.Proofs.Task.Isolation

/-!
# What is told of one file

Sweeping a file either tells that there is nothing to do, or counts what was taken out, or tells why
it failed.  The counts are made of what the scan found and of what was to be written, before
anything is written; here they are compared with the file as it stood and as it stands afterwards.

There are four ways in which a file comes out (`FaultPlan.alone_cases`).  From them it follows that
each answer says what was done to the file, on every disk, for all options, and whatever reads and
writes are refused (`FaultPlan.tellsTrue_alone`).
-/

namespace MediaSweep

set_option autoImplicit false

namespace FaultPlan

/-- A path leads to a file that can be read, and its content is a text. -/
structure Reads (plan : FaultPlan) (d : Disk) (path : Path) (location : Location) (rights : Rights)
    (text : String) : Prop where
  spared : plan.reading path = none
  found : d.find path = .ok location
  stands : d.item? location = some (.file rights text.toUTF8)
  readable : rights.read = true

variable {plan : FaultPlan} {options : SweepOptions} {d : Disk} {path : Path} {text : String}
  {location place : Location} {rights rights' : Rights} {other : String}

theorem Reads.readText_eq (reads : plan.Reads d path location rights text) :
    (plan.readBytes d path).bind FileSystem.decode = .ok text := by
  have read : plan.readBytes d path = .ok text.toUTF8 := by
    rw [readBytes, reads.spared]
    show d.readBytes path = _
    rw [Disk.readBytes_eq_read reads.found reads.stands]
    exact if_pos reads.readable
  rw [read]
  exact decode_toUTF8 text

/-- A path leads to one text. -/
theorem Reads.unique (reads : plan.Reads d path location rights text)
    (reads' : plan.Reads d path place rights' other) : other = text :=
  Except.ok.inj (reads'.readText_eq.symm.trans reads.readText_eq)

/-- **The ways in which a swept file comes out**: it cannot be read; nothing is to be written; it
cannot be written; it is written. -/
theorem alone_cases (plan : FaultPlan) (options : SweepOptions) (d : Disk) (path : Path) :
    (∃ fault, (plan.readBytes d path).bind FileSystem.decode = .error fault ∧
      plan.alone options d path = (.error (.read path fault), d)) ∨
    ∃ location rights text, plan.Reads d path location rights text ∧
      (((removeAllMedia text options.maxBlankLines).removed = [] ∨ options.dryRun = true) ∧
          plan.alone options d path =
            (.ok (.ofCleanup text (removeAllMedia text options.maxBlankLines)), d) ∨
        ((removeAllMedia text options.maxBlankLines).removed ≠ [] ∧ options.dryRun = false) ∧
          ((∃ fault, plan.alone options d path = (.error (.write path fault), d)) ∨
            plan.alone options d path =
              (.ok (.ofCleanup text (removeAllMedia text options.maxBlankLines)),
                d.put location (.file rights
                  (removeAllMedia text options.maxBlankLines).text.toUTF8)))) := by
  rw [alone, on_sweepFile, edited, on_editFile]
  cases read : (plan.readBytes d path).bind FileSystem.decode with
  | error fault => exact .inl ⟨fault, rfl, rfl⟩
  | ok text =>
    obtain ⟨spared, location, rights, found, stands, readable⟩ := exists_of_readText read
    refine .inr ⟨location, rights, text, ⟨spared, found, stands, readable⟩, ?_⟩
    by_cases idle : (removeAllMedia text options.maxBlankLines).removed = [] ∨ options.dryRun = true
    · have change : options.edit text = none := if_pos idle
      refine .inl ⟨idle, ?_⟩
      simp only [change]
      rfl
    · have change : options.edit text = some (removeAllMedia text options.maxBlankLines).text :=
        if_neg idle
      refine .inr ⟨⟨(not_or.1 idle).1, Bool.eq_false_iff.2 (not_or.1 idle).2⟩, ?_⟩
      simp only [change]
      cases writing : plan.writeBytes d path
          (removeAllMedia text options.maxBlankLines).text.toUTF8 with
      | error fault => exact .inl ⟨fault, rfl⟩
      | ok written =>
        -- a file that was read is written in place
        have spared' : plan.writing path = none := by
          rw [writeBytes] at writing
          split at writing
          · cases writing
          · assumption
        rw [writeBytes_of_find spared' found stands] at writing
        split at writing
        · obtain rfl := Except.ok.inj writing
          exact .inr rfl
        · cases writing

end FaultPlan

/-! ## Counts -/

/-- The counts that are told of a text whose media blocks are taken out. -/
structure CleanCounts (text : String) (most blocks linesBefore linesAfter bytesBefore
    bytesAfter : Nat) : Prop where
  blocks_eq : blocks = (mediaBlocks (Text.toLines text)).length
  blocks_pos : 1 ≤ blocks
  linesBefore_eq : linesBefore = (Text.toLines text).length
  linesAfter_eq : linesAfter = (removeAllMedia text most).linesAfter
  linesAfter_lt : linesAfter < linesBefore
  bytesBefore_eq : bytesBefore = text.toUTF8.size
  bytesAfter_eq : bytesAfter = (removeAllMedia text most).text.toUTF8.size
  bytesAfter_lt : bytesAfter < bytesBefore

/-- Taking out a block makes a text shorter by a line at least. -/
theorem linesAfter_lt_of_removed {text : String} {most : Nat}
    (found : (removeAllMedia text most).removed ≠ []) :
    (removeAllMedia text most).linesAfter < (removeAllMedia text most).linesBefore := by
  have account := accountsFor_removeAllMedia text most
  obtain ⟨block, others, removed⟩ := List.exists_cons_of_ne_nil found
  have taken := account.removedLines_eq
  rw [removed, List.map_cons, List.sum_cons] at taken
  have some_line := block.span.size_pos
  have complete := account.complete
  omega

/-- **What is told of a cleaned text are its counts.** -/
theorem cleanCounts_of_ofCleanup {text : String}
    {most blocks linesBefore linesAfter bytesBefore bytesAfter : Nat}
    (told : SweepOutcome.ofCleanup text (removeAllMedia text most) =
      .cleaned blocks linesBefore linesAfter bytesBefore bytesAfter) :
    (removeAllMedia text most).removed ≠ [] ∧
      CleanCounts text most blocks linesBefore linesAfter bytesBefore bytesAfter := by
  rw [SweepOutcome.ofCleanup] at told
  split at told
  · cases told
  · rename_i found
    obtain ⟨rfl, rfl, rfl, rfl, rfl⟩ := SweepOutcome.cleaned.inj told
    exact ⟨found, {
      blocks_eq := rfl
      blocks_pos := List.length_pos_iff.2 found
      linesBefore_eq := rfl
      linesAfter_eq := rfl
      linesAfter_lt := linesAfter_lt_of_removed found
      bytesBefore_eq := rfl
      bytesAfter_eq := rfl
      bytesAfter_lt := (accountsFor_removeAllMedia text most).byteSize_lt found }⟩

/-! ## The answer -/

/-- One disk is another one with a file rewritten, and no media block is in the file any more. -/
structure Disk.CleansFile (d : Disk) (location : Location) (rights : Rights) (new : String)
    (d' : Disk) : Prop where
  current_eq : d'.current = d.current
  holds : d'.item? location = some (.file rights new.toUTF8)
  no_media : ¬ mediaWord <:+: new.toList
  others : ∀ other, other ≠ location → d'.item? other = d.item? other

/-- What is told of a swept file is what was done to it. -/
structure FaultPlan.TellsTrue (plan : FaultPlan) (options : SweepOptions) (d : Disk)
    (path : Path) : Prop where
  /-- There is nothing to do exactly for texts without the word `@media`, -/
  nothingToDo_iff : (plan.alone options d path).1 = .ok .nothingToDo ↔
    ∃ location rights text, plan.Reads d path location rights text ∧
      ¬ mediaWord <:+: text.toList
  /-- and then nothing is done, whatever blank lines the text has. -/
  nothingToDo_untouched :
    (plan.alone options d path).1 = .ok .nothingToDo → (plan.alone options d path).2 = d
  /-- A file that is said to be cleaned was read and has the counts that are told, and unless this
  is a dry run it holds the cleaned text. -/
  cleaned : ∀ blocks linesBefore linesAfter bytesBefore bytesAfter,
    (plan.alone options d path).1 =
        .ok (.cleaned blocks linesBefore linesAfter bytesBefore bytesAfter) →
      ∃ location rights text, plan.Reads d path location rights text ∧
        CleanCounts text options.maxBlankLines blocks linesBefore linesAfter bytesBefore
          bytesAfter ∧
        (options.dryRun = false →
          d.CleansFile location rights (removeAllMedia text options.maxBlankLines).text
            (plan.alone options d path).2)
  /-- The dry run gives the same answer, -/
  dry_eq : ∀ outcome, (plan.alone options d path).1 = .ok outcome →
    (plan.alone options.dry d path).1 = .ok outcome
  /-- and writes nothing. -/
  dry_untouched : (plan.alone options.dry d path).2 = d
  /-- A file fails when it cannot be read as a text or cannot be written, -/
  failed : ∀ failure, (plan.alone options d path).1 = .error failure →
    (∃ fault, failure = .read path fault) ∨ ∃ fault, failure = .write path fault
  failed_read_iff : (∃ fault, (plan.alone options d path).1 = .error (.read path fault)) ↔
    ¬ ∃ location rights text, plan.Reads d path location rights text
  /-- and then the disk stays as it is. -/
  failed_untouched : ∀ failure, (plan.alone options d path).1 = .error failure →
    (plan.alone options d path).2 = d

namespace FaultPlan

variable {plan : FaultPlan} {options : SweepOptions} {d : Disk} {path : Path} {text : String}
  {location : Location} {rights : Rights}

/-- A file that is rewritten without its blocks is cleaned. -/
theorem cleansFile_put (stands : d.item? location = some (.file rights text.toUTF8)) (most : Nat) :
    d.CleansFile location rights (removeAllMedia text most).text
      (d.put location (.file rights (removeAllMedia text most).text.toUTF8)) where
  current_eq := rfl
  holds := by rw [Disk.item?_put_file stands, if_pos rfl]
  no_media := not_mediaWord_infix_removeAllMedia text most
  others := fun other away => by rw [Disk.item?_put_file stands, if_neg away]

/-- A text that cannot be read is no text that a path leads to. -/
theorem not_reads_of_refused {fault : FileFault}
    (refused : (plan.readBytes d path).bind FileSystem.decode = .error fault) :
    ¬ ∃ location rights text, plan.Reads d path location rights text := by
  rintro ⟨_, _, _, reads⟩
  rw [reads.readText_eq] at refused
  cases refused

/-- Nothing is taken out of a text that was read exactly when it does not have the word `@media`. -/
theorem removed_eq_nil_iff_of_reads (reads : plan.Reads d path location rights text) (most : Nat) :
    (removeAllMedia text most).removed = [] ↔
      ∃ location rights text, plan.Reads d path location rights text ∧
        ¬ mediaWord <:+: text.toList := by
  rw [removed_removeAllMedia_eq_nil_iff]
  constructor
  · intro plain
    exact ⟨location, rights, text, reads, plain⟩
  · rintro ⟨_, _, other, reads', plain⟩
    rwa [reads.unique reads'] at plain

theorem alone_eq_nothingToDo_iff :
    (plan.alone options d path).1 = .ok .nothingToDo ↔
      ∃ location rights text, plan.Reads d path location rights text ∧
        ¬ mediaWord <:+: text.toList := by
  rcases plan.alone_cases options d path with ⟨fault, refused, ran⟩ |
    ⟨location, rights, text, reads, ⟨_, ran⟩ | ⟨⟨found, _⟩, ⟨fault, ran⟩ | ran⟩⟩ <;> rw [ran]
  · refine iff_of_false (by simp) ?_
    rintro ⟨location, rights, text, reads, _⟩
    exact not_reads_of_refused refused ⟨location, rights, text, reads⟩
  · rw [Except.ok.injEq, ofCleanup_eq_nothingToDo_iff]
    exact removed_eq_nil_iff_of_reads reads _
  · exact iff_of_false (by simp) (mt (removed_eq_nil_iff_of_reads reads _).2 found)
  · rw [Except.ok.injEq, ofCleanup_eq_nothingToDo_iff]
    exact removed_eq_nil_iff_of_reads reads _

/-- **The disk only changes for a file that is cleaned.** -/
theorem snd_alone_of_not_cleaned (settled : ∀ blocks before after bytesBefore bytesAfter,
      (plan.alone options d path).1 ≠ .ok (.cleaned blocks before after bytesBefore bytesAfter)) :
    (plan.alone options d path).2 = d := by
  rcases plan.alone_cases options d path with ⟨fault, _, ran⟩ |
    ⟨location, rights, text, reads, ⟨_, ran⟩ | ⟨⟨found, _⟩, ⟨fault, ran⟩ | ran⟩⟩
  · rw [ran]
  · rw [ran]
  · rw [ran]
  · refine absurd (congrArg Prod.fst ran) ?_
    rw [SweepOutcome.ofCleanup, if_neg found]
    exact settled _ _ _ _ _

theorem exists_of_alone_eq_cleaned {blocks linesBefore linesAfter bytesBefore bytesAfter : Nat}
    (told : (plan.alone options d path).1 =
      .ok (.cleaned blocks linesBefore linesAfter bytesBefore bytesAfter)) :
    ∃ location rights text, plan.Reads d path location rights text ∧
      CleanCounts text options.maxBlankLines blocks linesBefore linesAfter bytesBefore bytesAfter ∧
      (options.dryRun = false →
        d.CleansFile location rights (removeAllMedia text options.maxBlankLines).text
          (plan.alone options d path).2) := by
  rcases plan.alone_cases options d path with ⟨fault, refused, ran⟩ |
    ⟨location, rights, text, reads, ⟨idle, ran⟩ | ⟨_, ⟨fault, ran⟩ | ran⟩⟩ <;> rw [ran] at told ⊢
  · cases told
  · obtain ⟨found, counts⟩ := cleanCounts_of_ofCleanup (Except.ok.inj told)
    refine ⟨location, rights, text, reads, counts, fun earnest => ?_⟩
    -- blocks were found, so the file was only left as it was because this is a dry run
    rw [idle.resolve_left found] at earnest
    cases earnest
  · cases told
  · obtain ⟨_, counts⟩ := cleanCounts_of_ofCleanup (Except.ok.inj told)
    exact ⟨location, rights, text, reads, counts, fun _ => cleansFile_put reads.stands _⟩

theorem failure_of_alone {failure : Failure}
    (told : (plan.alone options d path).1 = .error failure) :
    (∃ fault, failure = .read path fault) ∨ ∃ fault, failure = .write path fault := by
  rcases plan.alone_cases options d path with ⟨fault, _, ran⟩ |
    ⟨_, _, _, _, ⟨_, ran⟩ | ⟨_, ⟨fault, ran⟩ | ran⟩⟩ <;> rw [ran] at told
  · exact .inl ⟨fault, (Except.error.inj told).symm⟩
  · cases told
  · exact .inr ⟨fault, (Except.error.inj told).symm⟩
  · cases told

theorem alone_eq_read_iff :
    (∃ fault, (plan.alone options d path).1 = .error (.read path fault)) ↔
      ¬ ∃ location rights text, plan.Reads d path location rights text := by
  rcases plan.alone_cases options d path with ⟨fault, refused, ran⟩ |
    ⟨location, rights, text, reads, ⟨_, ran⟩ | ⟨_, ⟨fault, ran⟩ | ran⟩⟩ <;> rw [ran]
  · exact iff_of_true ⟨fault, rfl⟩ (not_reads_of_refused refused)
  all_goals exact iff_of_false (by simp) fun unread => unread ⟨location, rights, text, reads⟩

/-- **What is told of a swept file is what was done to it**, on every disk, for all options, and
whatever reads and writes are refused. -/
theorem tellsTrue_alone (plan : FaultPlan) (options : SweepOptions) (d : Disk) (path : Path) :
    plan.TellsTrue options d path where
  nothingToDo_iff := alone_eq_nothingToDo_iff
  nothingToDo_untouched := fun told => snd_alone_of_not_cleaned (by simp [told])
  cleaned := fun _ _ _ _ _ told => exists_of_alone_eq_cleaned told
  dry_eq := fun outcome told => by rw [alone_dry (by simp [told]), told]
  dry_untouched := by rw [snd_alone, edited_of_no_change options.edit_dry]
  failed := fun _ told => failure_of_alone told
  failed_read_iff := alone_eq_read_iff
  failed_untouched := fun _ told => snd_alone_of_not_cleaned (by simp [told])

end FaultPlan

end MediaSweep
