import ForgeChores.CommandLine.Run
import ForgeChores.Proofs.Forge.Connected
import ForgeChores.Proofs.Text.Case

/-!
# ForgeChores.Proofs.CommitStatus

The states of checks and the words for them.

A text is brought to a `word`, and a word stands for the state that has it among its `words`, or for
itself (`ofWord_cases`). A state is written with one of its own words (`ofWord_text`), and what is
written is a word already (`word_text`), so it reads back as the same state.

* `parse_projection`: reading what was written changes nothing, letter case and white space do not
  matter, a state of its own is trimmed and in lower case and none of the known words, and what is
  printed of a finished check reads back as its state.
-/

namespace ForgeChores

namespace Text

theorem isUpper_of_mem_lower {s : String} {c : Char} (h : c ∈ (lower s).toList) :
    c.isUpper = false := by
  rw [lower, String.toList_ofList] at h
  obtain ⟨d, -, rfl⟩ := List.mem_map.mp h
  exact isUpper_toLower d

theorem lower_lower (s : String) : lower (lower s) = lower s := by
  unfold lower
  rw [String.toList_ofList, List.map_map]
  congr 1
  exact List.map_congr_left fun c _ => toLower_toLower c

end Text

namespace StatusState

variable {raw w x : String} {s : StatusState}

/-! ## Words -/

/-- The word that a text is looked up as. -/
def word (raw : String) : String := Text.lower (Text.trim raw)

theorem word_word (raw : String) : word (word raw) = word raw := by
  unfold word
  rw [Text.trim_lower, Text.trim_trim, Text.lower_lower]

/-- The words that stand for a state. -/
def words : StatusState → List String
  | .pending => pendingWords
  | .running => runningWords
  | .success => successWords
  | .failure => failureWords
  | .error => errorWords
  | .cancelled => cancelledWords
  | .skipped => skippedWords
  | .other _ => []

/-- The states that have words. -/
def known : List StatusState := [pending, running, success, failure, error, cancelled, skipped]

/-- Every word that stands for one of them. -/
def recognized : List String := known.flatMap words

theorem mem_known_of_mem_words (h : w ∈ s.words) : s ∈ known := by
  cases s with
  | other x => cases h
  | _ => decide

theorem ofWord_cases (w : String) :
    w ∈ (ofWord w).words ∨ w ∉ recognized ∧ ofWord w = .other w := by
  unfold ofWord
  split
  · exact .inl ‹_›
  split
  · exact .inl ‹_›
  split
  · exact .inl ‹_›
  split
  · exact .inl ‹_›
  split
  · exact .inl ‹_›
  split
  · exact .inl ‹_›
  split
  · exact .inl ‹_›
  · refine .inr ⟨?_, rfl⟩
    simp only [recognized, known, List.flatMap_cons, List.flatMap_nil, words, List.mem_append]
    simp [*]

/-- No word stands for two states. -/
theorem ofWord_of_mem (h : w ∈ s.words) : ofWord w = s := by
  have hall : ∀ s ∈ known, ∀ w ∈ s.words, ofWord w = s := by decide
  exact hall s (mem_known_of_mem_words h) w h

theorem ofWord_eq_other_iff : ofWord w = .other x ↔ x = w ∧ x ∉ recognized := by
  rcases ofWord_cases w with hknown | ⟨hunknown, hother⟩
  · refine iff_of_false (fun h => ?_) ?_
    · rw [h] at hknown
      cases hknown
    · rintro ⟨rfl, hunknown⟩
      exact hunknown (List.mem_flatMap.mpr ⟨_, mem_known_of_mem_words hknown, hknown⟩)
  · rw [hother]
    constructor
    · rintro ⟨⟩
      exact ⟨rfl, hunknown⟩
    · rintro ⟨rfl, -⟩
      rfl

theorem ofWord_text (w : String) : ofWord (ofWord w).text = ofWord w := by
  rcases ofWord_cases w with hknown | ⟨-, hother⟩
  · have hall : ∀ s ∈ known, s.text ∈ s.words := by decide
    exact ofWord_of_mem (hall _ (mem_known_of_mem_words hknown))
  · rw [hother, text, hother]

theorem word_text (hw : word w = w) : word (ofWord w).text = (ofWord w).text := by
  rcases ofWord_cases w with hknown | ⟨-, hother⟩
  · have hall : ∀ s ∈ known, word s.text = s.text := by decide
    exact hall _ (mem_known_of_mem_words hknown)
  · rw [hother, text, hw]

/-! ## Texts -/

theorem parse_text (raw : String) : parse (parse raw).text = parse raw := by
  show ofWord (word (ofWord (word raw)).text) = ofWord (word raw)
  rw [word_text (word_word raw), ofWord_text]

theorem parse_respelled {before core after : String} (hbefore : Text.trim before = "")
    (hafter : Text.trim after = "") (hcore : Text.lower core = Text.lower raw) :
    parse (before ++ core ++ after) = parse raw := by
  unfold parse
  rw [Text.trim_padded hbefore hafter, ← Text.trim_lower, hcore, Text.trim_lower]

theorem printed_status {f : Forge Exchange} {repo sha name : String} {o : WaitOptions}
    {e : Exchange} (h : (f.statusConclusion repo sha name o e).result = .ok s)
    (lines : List String) :
    (CommandLine.status f repo sha name o (e, lines)).state.2 = lines ++ [s.text] := by
  rcases hrun : f.statusConclusion repo sha name o e with ⟨result, d, e'⟩
  rw [hrun] at h
  obtain rfl : result = .ok s := h
  have hstep : CommandLine.Job.operation ("failed waiting for status '" ++ name ++ "' on " ++ sha)
      (f.statusConclusion repo sha name o) (e, lines) = ⟨.ok s, d, (e', lines)⟩ := by
    simp only [CommandLine.Job.operation, Task.onFirst, Task.mapError, hrun]
    rfl
  have hprint : CommandLine.Job.print s.text (e', lines) = ⟨.ok (), 0, (e', lines ++ [s.text])⟩ :=
    rfl
  unfold CommandLine.status
  rw [Task.bind_of_ok hstep, Task.bind_of_ok hprint]
  -- whether the command fails then or not, the line stays
  cases CommandLine.isGood s <;> rfl

/-- Reading a state that was written gives the same state. What a text says does not depend on the
letter case in ASCII, nor on white space around it. A word that stands for itself is trimmed and in
lower case, and is none of those that stand for another state. So the line that a command prints of a
finished check reads back as its state. -/
theorem parse_projection (raw : String) :
    parse (parse raw).text = parse raw ∧
    (∀ before core after, (∀ c ∈ before.toList, Text.isBlank c = true) →
      (∀ c ∈ after.toList, Text.isBlank c = true) → Text.lower core = Text.lower raw →
      parse (before ++ core ++ after) = parse raw) ∧
    (∀ x, parse raw = .other x →
      Text.Bare Text.isBlank x.toList ∧ (∀ c ∈ x.toList, c.isUpper = false) ∧ x ∉ recognized) ∧
    ∀ (f : Forge Exchange) (repo sha name : String) (o : WaitOptions) (e : Exchange)
      (lines : List String), (f.statusConclusion repo sha name o e).result = .ok (parse raw) →
      ∃ line, (CommandLine.status f repo sha name o (e, lines)).state.2 = lines ++ [line] ∧
        parse line = parse raw := by
  refine ⟨parse_text raw, fun before core after hbefore hafter hcore => ?_, fun x hx => ?_,
    fun f repo sha name o e lines h => ⟨_, printed_status h lines, parse_text raw⟩⟩
  · exact parse_respelled (Text.trim_eq_empty_iff.mpr hbefore) (Text.trim_eq_empty_iff.mpr hafter)
      hcore
  · have hword : ofWord (word raw) = .other x := hx
    obtain ⟨rfl, hunknown⟩ := ofWord_eq_other_iff.mp hword
    refine ⟨?_, fun c => Text.isUpper_of_mem_lower, hunknown⟩
    rw [word, ← Text.trim_lower, Text.trim, String.toList_ofList]
    exact Text.bare_stripWhile _ _

/-- A forge that lists one failed check. -/
def failedCheck : Forge Exchange :=
  { publicGitHub.forge with
    listCommitStatuses := fun _ _ => pure [⟨"build", parse " Failed"⟩] }

/-- A word of a state in another letter case, one that stands for itself, and a line that is
printed. -/
theorem parse_projection_foreign :
    parse (parse "Timed_OUT ").text = .error ∧
      parse ("\u2003" ++ "SUCCEEDED" ++ "\n") = parse "Succeeded" ∧
      parse " ÄRGER\t" = .other "Ärger" ∧ (∀ c ∈ "Ärger".toList, c.isUpper = false) ∧
      "Ärger" ∉ recognized ∧
      ∃ line, (CommandLine.status failedCheck "o/r" "sha" "build" .status (⟨[], #[]⟩, [])).state.2 =
        [line] ∧ parse line = .failure := by
  obtain ⟨htext, -, -, -⟩ := parse_projection "Timed_OUT "
  obtain ⟨-, hrespelled, -, -⟩ := parse_projection "Succeeded"
  obtain ⟨-, -, hother, -⟩ := parse_projection " ÄRGER\t"
  obtain ⟨-, -, -, hprinted⟩ := parse_projection " Failed"
  have hword : parse " ÄRGER\t" = .other "Ärger" := by decide
  obtain ⟨-, hlower, hunknown⟩ := hother "Ärger" hword
  refine ⟨htext.trans (by decide), ?_, hword, hlower, hunknown, ?_⟩
  · exact hrespelled "\u2003" "SUCCEEDED" "\n" (Text.trim_eq_empty_iff.mp (by decide))
      (Text.trim_eq_empty_iff.mp (by decide)) (by decide)
  · exact hprinted failedCheck "o/r" "sha" "build" .status ⟨[], #[]⟩ [] rfl

end StatusState
end ForgeChores
