import Phraseology.Proofs.Session.Invariant
import Phraseology.Proofs.Stream.Written
import Phraseology.Proofs.Text.Blank

/-! Serving a stream: line by line, each answered by the session that the lines before it leave. -/
namespace Phraseology.Stream

open Text (isBlankText trimChars)

variable {s : Session} {a b l : List UInt8} {ls : List (List UInt8)} {t : String}

def IsText (l : List UInt8) : Prop := ByteArray.IsValidUTF8 ⟨l.toArray⟩

instance (l : List UInt8) : Decidable (IsText l) :=
  inferInstanceAs (Decidable (ByteArray.IsValidUTF8 _))

theorem fromUTF8?_bytes (t : String) : String.fromUTF8? ⟨(bytes t).toArray⟩ = some t := by
  have hvalid : ByteArray.IsValidUTF8 t.toUTF8 := t.isValidUTF8
  change String.fromUTF8? t.toUTF8 = some t
  rw [String.fromUTF8?, dif_pos hvalid]
  rfl

theorem readLine_bytes {α : Type} (r : Json.Reader α) (t : String) : readLine r (bytes t) =
    if isBlankText t then .blank
    else match Json.readText r (trimChars t.toList) with
      | .ok m => .message m
      | .error p => .refused p := by
  have hblank : (trimChars t.toList).isEmpty = isBlankText t := by
    rw [Bool.eq_iff_iff, List.isEmpty_iff]
    exact Text.trimChars_eq_nil_iff
  rw [readLine, fromUTF8?_bytes]
  cases hread : Json.readText r (trimChars t.toList) <;> simp only [hblank, hread]

theorem readLine_eq_garbled_iff : readLine HostMessage.reader l = .garbled ↔ ¬ IsText l := by
  constructor
  · intro h htext
    obtain ⟨cs, rfl⟩ := isValidUTF8_iff.1 htext
    rw [← String.toList_ofList (l := cs), ← bytes_eq, readLine_bytes] at h
    split_ifs at h
    split at h <;> cases h
  · intro h
    have hnone : String.fromUTF8? ⟨l.toArray⟩ = none := dif_neg h
    rw [readLine, hnone]

/-- The lines of a stream up to the first that is no text. -/
def texts (a : List UInt8) : List (List UInt8) := (lines a).takeWhile (IsText ·)

def messages (ls : List (List UInt8)) : List HostMessage :=
  ls.filterMap fun l =>
    match readLine HostMessage.reader l with
    | .message m => some m
    | _ => none

/-- The session behind a line. -/
def next (s : Session) (l : List UInt8) : Session :=
  match readLine HostMessage.reader l with
  | .message m => (s.handle m).1
  | .blank | .refused _ | .garbled => s

def answers (s : Session) (l : List UInt8) : List ClientMessage :=
  match readLine HostMessage.reader l with
  | .message m => (s.handle m).2
  | .refused p => [.ofError (.json p)]
  | .blank | .garbled => []

/-- Only messages change a session. -/
theorem foldl_next (s : Session) (ls : List (List UInt8)) :
    ls.foldl next s = (messages ls).foldl (fun s m => (s.handle m).1) s := by
  induction ls generalizing s with
  | nil => rfl
  | cons l ls ih =>
    rw [List.foldl_cons, ih, messages, messages, next, List.filterMap_cons]
    cases readLine HostMessage.reader l <;> rfl

theorem serveLine_eq (s : Session) (l : List UInt8) :
    serveLine s l = ⟨next s l, answers s l, !decide (IsText l)⟩ := by
  have htext : decide (IsText l) = true ↔ readLine HostMessage.reader l ≠ .garbled := by
    rw [decide_eq_true_iff, Ne, readLine_eq_garbled_iff, not_not]
  unfold serveLine next answers
  cases h : readLine HostMessage.reader l with
  | garbled =>
    rw [decide_eq_false (readLine_eq_garbled_iff.1 h)]
    rfl
  | blank =>
    rw [htext.2 (by simp [h])]
    rfl
  | message m =>
    rw [htext.2 (by simp [h])]
    rfl
  | refused p =>
    rw [htext.2 (by simp [h])]
    rfl

/-- A line that is no text is not answered and changes nothing. -/
theorem serveLine_of_not_isText (h : ¬ IsText l) : serveLine s l = ⟨s, [], true⟩ := by
  rw [serveLine, readLine_eq_garbled_iff.2 h]

theorem serveLines_of_isText (hl : IsText l) (s : Session) (ls : List (List UInt8)) :
    serveLines s (l :: ls) =
      ⟨(serveLines (next s l) ls).session, answers s l ++ (serveLines (next s l) ls).output,
        (serveLines (next s l) ls).garbled⟩ := by
  simp [serveLines, serveLine_eq, hl]

theorem serveLines_of_not_isText (hl : ¬ IsText l) (s : Session) (ls : List (List UInt8)) :
    serveLines s (l :: ls) = ⟨s, [], true⟩ := by
  simp [serveLines, serveLine_of_not_isText hl]

/-- Each line is answered by the session behind the lines before it. -/
theorem serveLines_eq (s : Session) (ls : List (List UInt8)) :
    serveLines s ls =
      ⟨(ls.takeWhile (IsText ·)).foldl next s,
        ((ls.takeWhile (IsText ·)).mapIdx fun i l =>
          answers (((ls.takeWhile (IsText ·)).take i).foldl next s) l).flatten,
        !ls.all (IsText ·)⟩ := by
  induction ls generalizing s with
  | nil => rfl
  | cons l ls ih =>
    by_cases hl : IsText l
    · rw [serveLines_of_isText hl, ih]
      simp [hl]
    · rw [serveLines_of_not_isText hl]
      simp [hl]

/-- Lines that are all texts are served as they would be in a stream of their own. -/
theorem serveLines_append (h : ∀ l ∈ ls, IsText l) (s : Session) (ls' : List (List UInt8)) :
    serveLines s (ls ++ ls') =
      ⟨(serveLines (serveLines s ls).session ls').session,
        (serveLines s ls).output ++ (serveLines (serveLines s ls).session ls').output,
        (serveLines (serveLines s ls).session ls').garbled⟩ := by
  induction ls generalizing s with
  | nil => rfl
  | cons l ls ih =>
    obtain ⟨hl, hls⟩ := List.forall_mem_cons.1 h
    rw [List.cons_append, serveLines_of_isText hl, serveLines_of_isText hl, ih hls,
      List.append_assoc]

theorem garbled_serveLines_iff (s : Session) (ls : List (List UInt8)) :
    (serveLines s ls).garbled = true ↔ ∃ l ∈ ls, ¬ IsText l := by
  simp [serveLines_eq]

theorem serve_append (ha : IsText a) (hend : ∀ x ∈ a.getLast?, x = 10) (s : Session)
    (b : List UInt8) :
    (serve s a).garbled = false ∧ serve s (a ++ b) =
      ⟨(serve (serve s a).session b).session,
        (serve s a).output ++ (serve (serve s a).session b).output,
        (serve (serve s a).session b).garbled⟩ := by
  have htexts : ∀ l ∈ lines a, IsText l := fun l => isValidUTF8_of_mem_lines ha
  constructor
  · rw [← Bool.not_eq_true, serve, garbled_serveLines_iff]
    rintro ⟨l, hl, hnot⟩
    exact hnot (htexts l hl)
  · rw [serve, lines_append hend]
    exact serveLines_append htexts s (lines b)

/-- A line that is a text is blank, or no message, or a message. -/
theorem answers_bytes (s : Session) (t : String) :
    (isBlankText t = true → next s (bytes t) = s ∧ answers s (bytes t) = []) ∧
      (isBlankText t = false →
        (∀ p, Json.readText HostMessage.reader (trimChars t.toList) = .error p →
          next s (bytes t) = s ∧
            answers s (bytes t) = [.configurationError (Error.json p).message]) ∧
          ∀ m, Json.readText HostMessage.reader (trimChars t.toList) = .ok m →
            next s (bytes t) = (s.handle m).1 ∧ answers s (bytes t) = (s.handle m).2) := by
  unfold next answers
  rw [readLine_bytes]
  refine ⟨fun hblank => ?_, fun hblank => ⟨fun p hp => ?_, fun m hm => ?_⟩⟩
  · rw [if_pos hblank]
    exact ⟨rfl, rfl⟩
  · rw [if_neg (by simp [hblank]), hp]
    exact ⟨rfl, rfl⟩
  · rw [if_neg (by simp [hblank]), hm]
    exact ⟨rfl, rfl⟩

/-- A stream is served line by line up to the first that is no text. The messages are handled one
after another, each line is answered by the session that the lines before it leave, and each answer
is a line. A stream that ends behind a line may be served on its own, and the rest afterwards. -/
theorem serve_line_by_line :
    (∀ l rest, 10 ∉ l → lines (l ++ 10 :: rest) = l :: lines rest) ∧
      (∀ l, 10 ∉ l → lines l = if l = [] then [] else [l]) ∧
      (∀ s t,
        (isBlankText t = true → next s (bytes t) = s ∧ answers s (bytes t) = []) ∧
          (isBlankText t = false →
            (∀ p, Json.readText HostMessage.reader (trimChars t.toList) = .error p →
              next s (bytes t) = s ∧
                answers s (bytes t) = [.configurationError (Error.json p).message]) ∧
              ∀ m, Json.readText HostMessage.reader (trimChars t.toList) = .ok m →
                next s (bytes t) = (s.handle m).1 ∧ answers s (bytes t) = (s.handle m).2)) ∧
      (∀ s a,
        (serve s a).session = (messages (texts a)).foldl (fun s m => (s.handle m).1) s ∧
          (serve s a).output =
            ((texts a).mapIdx fun i l => answers (((texts a).take i).foldl next s) l).flatten ∧
          ((serve s a).garbled = true ↔ ∃ l ∈ lines a, ¬ IsText l) ∧
          lines (written (serve s a).output) =
            (serve s a).output.map fun m => bytes m.toJson.print) ∧
      ∀ s a b, IsText a → (∀ x ∈ a.getLast?, x = 10) →
        (serve s a).garbled = false ∧
          (serve s (a ++ b)).session = (serve (serve s a).session b).session ∧
          written (serve s (a ++ b)).output =
            written (serve s a).output ++ written (serve (serve s a).session b).output ∧
          (serve s (a ++ b)).garbled = (serve (serve s a).session b).garbled := by
  refine ⟨fun l rest => lines_append_newline, fun l hl => ?_, answers_bytes, ?_, ?_⟩
  · split_ifs with hnil
    · rw [hnil, lines]
    · exact lines_of_not_mem hl hnil
  · intro s a
    refine ⟨?_, ?_, garbled_serveLines_iff s (lines a), lines_written _⟩
    · rw [serve, serveLines_eq]
      exact foldl_next s (texts a)
    · rw [serve, serveLines_eq]
      rfl
  · intro s a b ha hend
    obtain ⟨hread, happend⟩ := serve_append ha hend s b
    rw [happend]
    exact ⟨hread, rfl, written_append _ _, rfl⟩

def stop : String :=
  "\x7b\"type\":\"SREngineRunningState\",\"content\":\x7b\"IsRunning\":false\x7d\x7d"

/-- What is no message is answered, a message behind it is handled, and what is no text ends the
service. -/
theorem serve_no_message :
    (serve Session.blank (bytes ("no message\n" ++ stop ++ "\n") ++ [255])).session =
        { Session.blank with running := false } ∧
      written (serve Session.blank (bytes ("no message\n" ++ stop ++ "\n") ++ [255])).output =
        written [.configurationError "Serde Json (de)serialization failed: expected ident",
          .running false] ∧
      (serve Session.blank (bytes ("no message\n" ++ stop ++ "\n") ++ [255])).garbled = true := by
  obtain ⟨hcut, -, hanswers, -, happend⟩ := serve_line_by_line
  set a := bytes ("no message\n" ++ stop ++ "\n") with ha
  have hwritten : a = bytes "no message" ++ 10 :: (bytes stop ++ 10 :: []) := by
    rw [ha, bytes_eq, bytes_eq, bytes_eq]
    rfl
  have htext : IsText a := isValidUTF8_iff.2 ⟨_, bytes_eq _⟩
  have hlast : a.getLast? = some 10 := by
    rw [hwritten, ← List.cons_append, ← List.append_assoc, List.getLast?_concat]
  obtain ⟨-, hsession, houtput, hgarbled⟩ := happend Session.blank a [255] htext fun x hx =>
    (Option.some.inj (hlast.symm.trans hx)).symm
  have hfirst : 10 ∉ bytes "no message" := by decide +kernel
  have hsecond : 10 ∉ bytes stop := by decide +kernel
  have hlines : lines a = [bytes "no message", bytes stop] := by
    rw [hwritten, hcut _ _ hfirst, hcut _ _ hsecond, lines]
  have hrefused : Json.readText HostMessage.reader (trimChars "no message".toList) =
      .error (.malformed .expectedWord) := by
    cbv
  have hread : Json.readText HostMessage.reader (trimChars stop.toList) = .ok (.running false) := by
    cbv
  obtain ⟨hnext, hanswer⟩ :=
    ((hanswers Session.blank "no message").2 (by decide)).1 _ hrefused
  obtain ⟨hstopped, hstops⟩ :=
    ((hanswers Session.blank stop).2 (by decide +kernel)).2 _ hread
  have hserve : serve Session.blank a =
      ⟨{ Session.blank with running := false },
        [.configurationError (Error.json (.malformed .expectedWord)).message, .running false],
        false⟩ := by
    have htexts (t : String) : IsText (bytes t) := isValidUTF8_iff.2 ⟨_, bytes_eq _⟩
    rw [serve, hlines, serveLines_of_isText (htexts _), serveLines_of_isText (htexts _), hnext,
      hanswer, hstopped, hstops]
    rfl
  have hnot : ¬ IsText [255] := by decide +kernel
  have hrest (s : Session) : serve s [255] = ⟨s, [], true⟩ := by
    rw [serve, show lines [255] = [[255]] from rfl, serveLines_of_not_isText hnot]
  have hmessage : (Error.json (.malformed .expectedWord)).message =
      "Serde Json (de)serialization failed: expected ident" := by decide +kernel
  rw [hsession, houtput, hgarbled, hserve, hrest, hmessage]
  exact ⟨rfl, List.append_nil _, rfl⟩

end Phraseology.Stream
