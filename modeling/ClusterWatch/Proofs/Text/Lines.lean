import ClusterWatch.Proofs.Text.Decoding
import ClusterWatch.Text.Lines

/-!
# Lines whatever the reads

What a pipe delivers depends on the bytes only, and not on how they are cut into reads. The text of all the
bytes is split at the line feeds (`endedLines`, `unended`); a failed read costs the unfinished line before it
and nothing else (`pipeItems_of_cut`).
-/

namespace ClusterWatch.Text

/-- A line without the carriage return that belongs to its ending. -/
def withoutReturn (line : List Char) : List Char :=
  if line.getLast? = some '\r' then line.dropLast else line

/-- The lines of a text that a line feed ends. -/
def endedLines (text : List Char) : List (List Char) :=
  (text.splitOn '\n').dropLast.map withoutReturn

/-- What comes after the last line feed of a text. -/
def unended (text : List Char) : List Char := (text.splitOn '\n').getLastD []

/-- All lines of a text. A last line without a line feed is one of them if it is not empty. -/
def linesOf (text : List Char) : List (List Char) :=
  endedLines text ++ if unended text = [] then [] else [unended text]

theorem endedLines_of_not_mem {text : List Char} (h : '\n' ∉ text) : endedLines text = [] := by
  rw [endedLines, List.splitOn_eq_singleton h]
  rfl

theorem unended_of_not_mem {text : List Char} (h : '\n' ∉ text) : unended text = text := by
  rw [unended, List.splitOn_eq_singleton h]
  rfl

theorem endedLines_append {line : List Char} (h : '\n' ∉ line) (rest : List Char) :
    endedLines (line ++ '\n' :: rest) = withoutReturn line :: endedLines rest := by
  rw [endedLines, List.splitOn_append_cons_self_of_not_mem h,
    List.dropLast_cons_of_ne_nil (List.splitOn_ne_nil _ _), List.map_cons, endedLines]

theorem unended_append {line : List Char} (h : '\n' ∉ line) (rest : List Char) :
    unended (line ++ '\n' :: rest) = unended rest := by
  rw [unended, List.splitOn_append_cons_self_of_not_mem h, unended]
  obtain ⟨piece, pieces, hpieces⟩ := List.exists_cons_of_ne_nil (List.splitOn_ne_nil '\n' rest)
  rw [hpieces]
  rfl

/-! ## Bytes without a line feed -/

theorem lineFeed_not_mem_decodeLossy {bytes : List UInt8} (h : lineFeed ∉ bytes) :
    '\n' ∉ decodeLossy bytes := fun hmem =>
  h (mem_of_mem_decodeLossy (c := '\n') (by decide) hmem)

theorem decodeLossy_append_lineFeed (bytes rest : List UInt8) :
    decodeLossy (bytes ++ lineFeed :: rest) = decodeLossy bytes ++ '\n' :: decodeLossy rest :=
  decodeLossy_append_ascii (c := '\n') (by decide) bytes rest

/-- The carriage return can be dropped before the bytes are decoded or after that. -/
theorem decodeLossy_dropReturn (reversed : List UInt8) :
    decodeLossy (dropReturn reversed).reverse = withoutReturn (decodeLossy reversed.reverse) := by
  cases reversed with
  | nil => simp [dropReturn, withoutReturn, decodeLossy]
  | cons b bytes =>
    rw [dropReturn]
    by_cases hb : b = carriageReturn
    · have htext : decodeLossy (bytes.reverse ++ [carriageReturn]) = decodeLossy bytes.reverse ++ ['\r'] := by
        have h := decodeLossy_append_ascii (c := '\r') (by decide) bytes.reverse []
        rwa [decodeLossy] at h
      rw [if_pos hb, hb, List.reverse_cons, htext, withoutReturn]
      simp
    · have hlast : (decodeLossy (b :: bytes).reverse).getLast? ≠ some '\r' := by
        intro h
        have hbyte := getLast?_of_getLast?_decodeLossy (by decide) h
        rw [List.getLast?_reverse] at hbyte
        exact hb (Option.some.inj hbyte)
      rw [if_neg hb, withoutReturn, if_neg hlast]

theorem decodeLossy_eq_nil_iff {bytes : List UInt8} : decodeLossy bytes = [] ↔ bytes = [] := by
  cases bytes with
  | nil => simp [decodeLossy]
  | cons b bytes => simp [decodeLossy_cons]

/-! ## What a pipe delivers -/

/-- The lines that are finished and the one that is not, after the bytes of an unfinished line. -/
theorem feed_eq (reversed : List UInt8) (h : lineFeed ∉ reversed) (bytes : List UInt8) :
    (feed reversed bytes).1 =
        (endedLines (decodeLossy (reversed.reverse ++ bytes))).map .line ∧
      decodeLossy (feed reversed bytes).2.reverse =
        unended (decodeLossy (reversed.reverse ++ bytes)) := by
  have hunfinished {r : List UInt8} (hr : lineFeed ∉ r) : '\n' ∉ decodeLossy r.reverse :=
    lineFeed_not_mem_decodeLossy (by rwa [List.mem_reverse])
  induction bytes generalizing reversed with
  | nil =>
    rw [List.append_nil, endedLines_of_not_mem (hunfinished h), unended_of_not_mem (hunfinished h)]
    exact ⟨rfl, rfl⟩
  | cons b bytes ih =>
    rw [feed]
    by_cases hb : b = lineFeed
    · obtain ⟨hitems, hrest⟩ := ih [] List.not_mem_nil
      rw [if_pos hb, hb, decodeLossy_append_lineFeed, endedLines_append (hunfinished h),
        unended_append (hunfinished h)]
      refine ⟨?_, hrest⟩
      show endedLine reversed :: (feed [] bytes).1 = _
      rw [hitems, endedLine, decodeLossy_dropReturn]
      rfl
    · have hmem : lineFeed ∉ b :: reversed := by
        intro hmem
        rcases List.mem_cons.1 hmem with heq | hmem
        · exact hb heq.symm
        · exact h hmem
      rw [if_neg hb]
      have hfed := ih (b :: reversed) hmem
      rwa [List.reverse_cons, List.append_assoc] at hfed

theorem feed_append (reversed first second : List UInt8) :
    feed reversed (first ++ second) =
      ((feed reversed first).1 ++ (feed (feed reversed first).2 second).1,
        (feed (feed reversed first).2 second).2) := by
  induction first generalizing reversed with
  | nil => rfl
  | cons b first ih =>
    rw [List.cons_append, feed, feed]
    by_cases hb : b = lineFeed
    · rw [if_pos hb, if_pos hb, ih]
      rfl
    · rw [if_neg hb, if_neg hb, ih]

/-- Reads with bytes amount to one read of all the bytes. -/
theorem itemsFrom_append (reversed : List UInt8) {chunks : List (List UInt8)}
    (h : ∀ chunk ∈ chunks, chunk ≠ []) (reads : List Read) :
    itemsFrom reversed (chunks.map .bytes ++ reads) =
      (feed reversed chunks.flatten).1 ++ itemsFrom (feed reversed chunks.flatten).2 reads := by
  induction chunks generalizing reversed with
  | nil => rfl
  | cons chunk chunks ih =>
    obtain ⟨hchunk, hchunks⟩ := List.forall_mem_cons.1 h
    obtain ⟨b, bytes, rfl⟩ := List.exists_cons_of_ne_nil hchunk
    rw [List.map_cons, List.cons_append, itemsFrom, ih _ hchunks, List.flatten_cons, feed_append,
      List.append_assoc]
    · exact fun hnil => by cases hnil

theorem pipeItems_bytes {chunks : List (List UInt8)} (h : ∀ chunk ∈ chunks, chunk ≠ []) :
    pipeItems (chunks.map .bytes) = (linesOf (decodeLossy chunks.flatten)).map .line := by
  obtain ⟨hended, hunended⟩ := feed_eq [] List.not_mem_nil chunks.flatten
  rw [List.reverse_nil, List.nil_append] at hended hunended
  have hitems := itemsFrom_append [] h []
  rw [List.append_nil] at hitems
  rw [pipeItems, hitems, hended, linesOf, List.map_append, ← hunended, itemsFrom, unendedLine]
  by_cases hopen : (feed [] chunks.flatten).2 = []
  · rw [hopen]
    simp [decodeLossy]
  · have hline : decodeLossy (feed [] chunks.flatten).2.reverse ≠ [] := by
      simpa [decodeLossy_eq_nil_iff] using hopen
    rw [if_neg hline, if_neg (by simpa using hopen)]
    rfl

theorem pipeItems_failure {chunks : List (List UInt8)} (h : ∀ chunk ∈ chunks, chunk ≠ []) (error : String)
    (later : List Read) :
    pipeItems (chunks.map .bytes ++ .failure error :: later) =
      (endedLines (decodeLossy chunks.flatten)).map .line ++ [.failure error] := by
  have hended := (feed_eq [] List.not_mem_nil chunks.flatten).1
  rw [List.reverse_nil, List.nil_append] at hended
  rw [pipeItems, itemsFrom_append [] h, hended, itemsFrom]

/-- However bytes are cut into reads, the pipe delivers the lines of the text that they stand for. If a read
fails, it delivers the lines that were finished before, and the failure at the end. -/
theorem pipeItems_of_cut {chunks : List (List UInt8)} (h : ∀ chunk ∈ chunks, chunk ≠ []) :
    ∃ text, (∀ other, Decodes chunks.flatten other ↔ other = text) ∧
      pipeItems (chunks.map .bytes) = (linesOf text).map .line ∧
      ∀ error later, pipeItems (chunks.map .bytes ++ .failure error :: later) =
        (endedLines text).map .line ++ [.failure error] :=
  ⟨decodeLossy chunks.flatten, fun _ => decodes_iff, pipeItems_bytes h, pipeItems_failure h⟩

/-- Reads that cut a character, and the two bytes of a line ending, in two. -/
theorem pipeItems_of_cut_ending :
    (∀ chunk ∈ [[0xe2, 0x82], [0xac, 0x0d], [0x0a, 0xff, 0x0d]], chunk ≠ ([] : List UInt8)) ∧
      pipeItems [.bytes [0xe2, 0x82], .bytes [0xac, 0x0d], .bytes [0x0a, 0xff, 0x0d]] =
        [.line ['€'], .line [replacement, '\r']] := by
  have hcut : ∀ chunk ∈ [[0xe2, 0x82], [0xac, 0x0d], [0x0a, 0xff, 0x0d]], chunk ≠ ([] : List UInt8) := by
    decide
  obtain ⟨text, htext, hlines, -⟩ := pipeItems_of_cut hcut
  have hdecodes : Decodes [0xe2, 0x82, 0xac, 0x0d, 0x0a, 0xff, 0x0d]
      ['€', '\r', '\n', replacement, '\r'] :=
    .character '€' (.character '\r' (.character '\n'
      (.invalid (invalidPart_stray (by decide) (by decide) [0x0d]) (.character '\r' .done))))
  obtain rfl := (htext _).1 hdecodes
  exact ⟨hcut, hlines.trans (by decide)⟩

end ClusterWatch.Text
