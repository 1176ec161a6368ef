import ResearchWorkbench.Services.Scanner

namespace ResearchWorkbench.Scanner

/-!
# What a scan says about a reply

* `Framed`, `framed_scanWrites` — the content is sent in frames, and they are its parts in order;
* `completeReply`, `endedReply` — the reply up to its NUL, or up to the end of the connection;
* `replyFrom_complete`, `replyFrom_ended`, `replyFrom_ok` — what `clamRequest` makes of them, by
  induction on what happens on the socket;
* `infectedName_eq_some`, `infectedName_isSome` — a match takes a text apart;
* `infectedName_infectionReport` — a report of an infection, cleaned and cut, is matched exactly if it
  still ends in `FOUND`;
* `VerdictRight`, `RepliesPlainly`, `verdict_right_iff` — what the result should say, and when it does.
-/

/-! ### Frames -/

/-- Bytes on the wire: frames that are not empty, each after its length, and one empty frame. -/
inductive Framed : Bytes → List Bytes → Prop
  | done : Framed (uint32BE 0) []
  | frame {frame wire : Bytes} {frames : List Bytes} (hne : frame ≠ [])
      (hlength : frame.length < 2 ^ 32) (rest : Framed wire frames) :
      Framed (uint32BE frame.length ++ frame ++ wire) (frame :: frames)

variable {options : ClamAvOptions} {bytes : Bytes}

theorem flatten_scanFramesFrom (offset : ℕ) :
    (scanFramesFrom options bytes offset).flatten = bytes.drop offset ∧
      ∀ frame ∈ scanFramesFrom options bytes offset,
        frame ≠ [] ∧ frame.length ≤ options.chunkBytes := by
  have hpos := options.chunkBytes_pos
  obtain ⟨left, hleft⟩ : ∃ left, bytes.length - offset ≤ left := ⟨_, le_rfl⟩
  induction left using Nat.strong_induction_on generalizing offset with
  | _ left ih =>
    rw [scanFramesFrom]
    split
    · rename_i hlt
      obtain ⟨hrest, hframes⟩ :=
        ih (bytes.length - (offset + options.chunkBytes)) (by omega) _ le_rfl
      constructor
      · rw [List.flatten_cons, hrest, ← List.drop_drop, List.take_append_drop]
      · intro frame hframe
        rcases List.mem_cons.mp hframe with rfl | hframe
        · refine ⟨?_, List.length_take_le _ _⟩
          intro hnil
          have := congrArg List.length hnil
          rw [List.length_take, List.length_drop, List.length_nil] at this
          omega
        · exact hframes frame hframe
    · rename_i hge
      exact ⟨(List.drop_of_length_le (Nat.not_lt.mp hge)).symm, fun _ h => absurd h List.not_mem_nil⟩

/-- **Frames.**  What follows the command is the content in frames. -/
theorem framed_scanWrites (options : ClamAvOptions) (bytes : Bytes) :
    Framed (scanWrites options bytes).tail.flatten (scanFrames options bytes) := by
  have hframes := (@flatten_scanFramesFrom options bytes 0).2
  have hle := options.chunkBytes_le
  show Framed (List.flatten ((scanFrames options bytes).flatMap _ ++ [[0, 0, 0, 0]])) _
  rw [List.flatten_append]
  unfold scanFrames
  generalize scanFramesFrom options bytes 0 = frames at hframes ⊢
  induction frames with
  | nil => exact .done
  | cons frame frames ih =>
    rw [List.forall_mem_cons] at hframes
    rw [List.flatMap_cons, List.flatten_append, List.append_assoc]
    have hflat : [uint32BE frame.length, frame].flatten = uint32BE frame.length ++ frame := by simp
    rw [hflat]
    exact .frame hframes.1.1 (by omega) (ih hframes.2)

/-! ### Replies -/

/-- The reply up to its NUL, and how many bytes have come with the chunk that has it. -/
def completeReplyFrom (received : Bytes) : List SocketEvent → Option (Bytes × ℕ)
  | .data chunk :: events =>
    if 0 ∈ received ++ chunk then
      some ((received ++ chunk).takeWhile (· ≠ 0), (received ++ chunk).length)
    else completeReplyFrom (received ++ chunk) events
  | _ => none

/-- The NUL-terminated reply. -/
def completeReply (events : List SocketEvent) : Option (Bytes × ℕ) := completeReplyFrom [] events

/-- What has come without a NUL when the connection is closed. -/
def endedReplyFrom (received : Bytes) : List SocketEvent → Option Bytes
  | .data chunk :: events =>
    if 0 ∈ received ++ chunk then none else endedReplyFrom (received ++ chunk) events
  | .endOfStream :: _ => some received
  | _ => none

/-- A reply that is cut off. -/
def endedReply (events : List SocketEvent) : Option Bytes := endedReplyFrom [] events

variable {events : List SocketEvent} {received reply name : Bytes} {size : ℕ}

theorem le_size (h : completeReplyFrom received events = some (reply, size)) :
    received.length ≤ size := by
  induction events generalizing received with
  | nil => cases h
  | cons event events ih =>
    cases event with
    | data chunk =>
      unfold completeReplyFrom at h
      split at h
      · cases h
        rw [List.length_append]
        omega
      · have := ih h
        rw [List.length_append] at this
        omega
    | endOfStream => cases h
    | timeout => cases h
    | failure => cases h

/-- A complete reply is taken if it has come within the limit. -/
theorem replyFrom_complete (h : completeReplyFrom received events = some (reply, size)) :
    replyFrom received events =
      some (if size ≤ 8192 then .ok (decodeUtf8 reply) else .error .other) := by
  induction events generalizing received with
  | nil => cases h
  | cons event events ih =>
    cases event with
    | data chunk =>
      unfold completeReplyFrom at h
      show (if 8192 < (received ++ chunk).length then _ else if 0 ∈ received ++ chunk then _
        else replyFrom (received ++ chunk) events) = _
      split at h
      · rename_i hnul
        cases h
        by_cases hlong : 8192 < (received ++ chunk).length
        · rw [if_pos hlong, if_neg (Nat.not_le.mpr hlong)]
        · rw [if_neg hlong, if_pos hnul, if_pos (Nat.not_lt.mp hlong)]
      · rename_i hnul
        have hsize := le_size h
        by_cases hlong : 8192 < (received ++ chunk).length
        · rw [if_pos hlong, if_neg (by omega)]
        · rw [if_neg hlong, if_neg hnul, ih h]
    | endOfStream => cases h
    | timeout => cases h
    | failure => cases h

/-- A complete reply is not cut off. -/
theorem endedReplyFrom_of_complete {found : Bytes × ℕ}
    (h : completeReplyFrom received events = some found) : endedReplyFrom received events = none := by
  induction events generalizing received with
  | nil => rfl
  | cons event events ih =>
    cases event with
    | data chunk =>
      unfold completeReplyFrom at h
      unfold endedReplyFrom
      split at h
      · rename_i hnul
        rw [if_pos hnul]
      · rename_i hnul
        rw [if_neg hnul, ih h]
    | endOfStream => cases h
    | timeout => cases h
    | failure => cases h

theorem replyFrom_ended (h : endedReplyFrom received events = some reply)
    (hle : reply.length ≤ 8192) : replyFrom received events = some (.ok (decodeUtf8 reply)) := by
  have hprefix : ∀ {received : Bytes} {events : List SocketEvent},
      endedReplyFrom received events = some reply → received.length ≤ reply.length := by
    intro received events h
    induction events generalizing received with
    | nil => cases h
    | cons event events ih =>
      cases event with
      | data chunk =>
        unfold endedReplyFrom at h
        split at h
        · cases h
        · have := ih h
          rw [List.length_append] at this
          omega
      | endOfStream =>
        cases h
        exact le_rfl
      | timeout => cases h
      | failure => cases h
  induction events generalizing received with
  | nil => cases h
  | cons event events ih =>
    cases event with
    | data chunk =>
      unfold endedReplyFrom at h
      split at h
      · cases h
      · rename_i hnul
        have := hprefix h
        show (if 8192 < (received ++ chunk).length then _ else if 0 ∈ received ++ chunk then _
          else replyFrom (received ++ chunk) events) = _
        rw [if_neg (by omega), if_neg hnul, ih h]
    | endOfStream =>
      cases h
      rfl
    | timeout => cases h
    | failure => cases h

/-- A reply that is taken is complete, or cut off. -/
theorem replyFrom_ok {text : Text} (hle : received.length ≤ 8192)
    (h : replyFrom received events = some (.ok text)) :
    (∃ reply size, completeReplyFrom received events = some (reply, size) ∧ size ≤ 8192 ∧
      text = decodeUtf8 reply) ∨
    ∃ reply, completeReplyFrom received events = none ∧
      endedReplyFrom received events = some reply ∧ reply.length ≤ 8192 ∧
        text = decodeUtf8 reply := by
  induction events generalizing received with
  | nil => cases h
  | cons event events ih =>
    cases event with
    | data chunk =>
      rw [replyFrom] at h
      by_cases hlong : 8192 < (received ++ chunk).length
      · rw [if_pos hlong] at h
        cases h
      · rw [if_neg hlong] at h
        by_cases hnul : 0 ∈ received ++ chunk
        · rw [if_pos hnul] at h
          cases h
          refine .inl ⟨_, _, ?_, Nat.not_lt.mp hlong, rfl⟩
          rw [completeReplyFrom, if_pos hnul]
        · rw [if_neg hnul] at h
          rw [completeReplyFrom, endedReplyFrom, if_neg hnul, if_neg hnul]
          exact ih (Nat.not_lt.mp hlong) h
    | endOfStream =>
      cases h
      exact .inr ⟨received, rfl, rfl, hle, rfl⟩
    | timeout => cases h
    | failure => cases h

/-! ### The two patterns -/

/-- The text ends in white space and `FOUND`, in any case. -/
def EndsInFound (text : Text) : Prop :=
  ∃ u c v, text = u ++ c :: v ∧ isSpaceUnit c = true ∧ v.map lowerUnit = asciiText "found"

theorem lower_stream : (asciiText "stream:").map lowerUnit = asciiText "stream:" := by simp [asciiText, lowerUnit]

theorem lower_found : (asciiText "FOUND").map lowerUnit = asciiText "found" := by simp [asciiText, lowerUnit]

theorem lower_ok : (asciiText "OK").map lowerUnit = asciiText "ok" := by simp [asciiText, lowerUnit]

theorem mem_atEnd {r : Unit × Place} {place : Place} (h : r ∈ atEnd place) : place.rest = [] := by
  unfold atEnd Pattern.notAhead at h
  split at h
  · cases h
  · rename_i hany
    cases hrest : place.rest with
    | nil => rfl
    | cons c rest =>
      rw [hrest] at hany
      exact absurd rfl hany

/-- A match of `infectedPattern` takes the text apart. -/
theorem infectedName_eq_some {text found : Text} (h : infectedName text = some found) :
    ∃ w blanks blanks' v, text = w ++ (blanks ++ (found ++ (blanks' ++ v))) ∧
      w.map lowerUnit = asciiText "stream:" ∧ (∀ c ∈ blanks, isSpaceUnit c = true) ∧
      blanks ≠ [] ∧ (∀ c ∈ blanks', isSpaceUnit c = true) ∧ blanks' ≠ [] ∧
      v.map lowerUnit = asciiText "found" := by
  obtain ⟨r, hr, hfound⟩ := Option.map_eq_some_iff.mp h
  have hmem : r ∈ infectedPattern ⟨none, text⟩ := List.mem_of_mem_head? hr
  obtain ⟨r₁, h₁, hmem⟩ := Pattern.mem_bind.mp hmem
  obtain ⟨r₂, h₂, hmem⟩ := Pattern.mem_bind.mp hmem
  obtain ⟨r₃, h₃, hmem⟩ := Pattern.mem_bind.mp hmem
  obtain ⟨r₄, h₄, hmem⟩ := Pattern.mem_bind.mp hmem
  obtain ⟨r₅, h₅, hmem⟩ := Pattern.mem_bind.mp hmem
  obtain ⟨r₆, h₆, hmem⟩ := Pattern.mem_bind.mp hmem
  have hname : r = (r₃.1, r₆.2) := Pattern.mem_pure.mp hmem
  obtain ⟨w, hw, hstream⟩ := Pattern.mem_word h₁
  obtain ⟨hblanks, hspaces, hmin⟩ := Pattern.mem_many h₂
  obtain ⟨hdots, _, _⟩ := Pattern.mem_many h₃
  obtain ⟨hblanks', hspaces', hmin'⟩ := Pattern.mem_many h₄
  obtain ⟨v, hv, hword⟩ := Pattern.mem_word h₅
  have hend := mem_atEnd h₆
  rw [hname] at hfound
  subst hfound
  refine ⟨w, r₂.1, r₄.1, v, ?_, hstream.trans lower_stream, hspaces, ?_, hspaces', ?_,
    hword.trans lower_found⟩
  · rw [show text = _ from hw, hblanks, hdots, hblanks', hv, hend, List.append_nil]
  · rintro hnil
    rw [hnil] at hmin
    simp at hmin
  · rintro hnil
    rw [hnil] at hmin'
    simp at hmin'

/-- A text that is apart as `infectedPattern` takes it is matched. -/
theorem infectedName_isSome {w blanks found blanks' v : Text}
    (hw : w.map lowerUnit = asciiText "stream:") (hblanks : ∀ c ∈ blanks, isSpaceUnit c = true)
    (hne : blanks ≠ []) (hfound : ∀ c ∈ found, isDotUnit c = true) (hne' : found ≠ [])
    (hblanks' : ∀ c ∈ blanks', isSpaceUnit c = true) (hne'' : blanks' ≠ [])
    (hv : v.map lowerUnit = asciiText "found") :
    (infectedName (w ++ (blanks ++ (found ++ (blanks' ++ v))))).isSome = true := by
  have hpos {l : Text} (h : l ≠ []) : 1 ≤ l.length := List.length_pos_iff.mpr h
  suffices hmatch : ∃ r, r ∈ infectedPattern ⟨none, w ++ (blanks ++ (found ++ (blanks' ++ v)))⟩ by
    obtain ⟨r, hr⟩ := hmatch
    unfold infectedName
    cases hmatches : infectedPattern ⟨none, w ++ (blanks ++ (found ++ (blanks' ++ v)))⟩ with
    | nil =>
      rw [hmatches] at hr
      cases hr
    | cons r rs => rfl
  let before := Pattern.lastBefore (Pattern.lastBefore (Pattern.lastBefore none w) blanks) found
  refine ⟨(found, ⟨Pattern.lastBefore (Pattern.lastBefore before blanks') v, []⟩), ?_⟩
  refine Pattern.mem_bind.mpr ⟨_, Pattern.word_append_mem (hw.trans lower_stream.symm), ?_⟩
  refine Pattern.mem_bind.mpr ⟨_, Pattern.many_append_mem hblanks (hpos hne), ?_⟩
  refine Pattern.mem_bind.mpr ⟨_, Pattern.many_append_mem hfound (hpos hne'), ?_⟩
  refine Pattern.mem_bind.mpr ⟨_, Pattern.many_append_mem hblanks' (hpos hne''), ?_⟩
  have hword := Pattern.word_append_mem (b := Pattern.lastBefore before blanks') (t := [])
    (hv.trans lower_found.symm)
  rw [List.append_nil] at hword
  refine Pattern.mem_bind.mpr ⟨_, hword, ?_⟩
  exact Pattern.mem_bind.mpr ⟨_, List.mem_singleton.mpr rfl, Pattern.mem_pure.mpr rfl⟩

theorem endsInFound_of_infectedName {text found : Text} (h : infectedName text = some found) :
    EndsInFound text := by
  obtain ⟨w, blanks, blanks', v, rfl, -, -, -, hspaces, hne, hv⟩ := infectedName_eq_some h
  refine ⟨w ++ (blanks ++ (found ++ blanks'.dropLast)), blanks'.getLast hne, v, ?_,
    hspaces _ (List.getLast_mem hne), hv⟩
  have := List.dropLast_append_getLast hne
  calc w ++ (blanks ++ (found ++ (blanks' ++ v)))
      = w ++ (blanks ++ (found ++ (blanks'.dropLast ++ [blanks'.getLast hne] ++ v))) := by rw [this]
    _ = _ := by simp

/-- `stream: OK` is no infection. -/
theorem infectedName_of_isOkResponse {text : Text} (h : isOkResponse text = true) :
    infectedName text = none := by
  rcases hname : infectedName text with _ | found
  · rfl
  obtain ⟨u, c, v, htext, -, hv⟩ := endsInFound_of_infectedName hname
  have hne : okPattern ⟨none, text⟩ ≠ [] := of_decide_eq_true h
  obtain ⟨r, hmem⟩ := List.exists_mem_of_ne_nil _ hne
  obtain ⟨r₁, h₁, hmem⟩ := Pattern.mem_bind.mp hmem
  obtain ⟨r₂, h₂, hmem⟩ := Pattern.mem_bind.mp hmem
  obtain ⟨r₃, h₃, hmem⟩ := Pattern.mem_bind.mp hmem
  obtain ⟨w, hw, -⟩ := Pattern.mem_word h₁
  obtain ⟨hblanks, -⟩ := Pattern.mem_many h₂
  obtain ⟨k, hk, hok⟩ := Pattern.mem_word h₃
  have hend := mem_atEnd hmem
  have hsplit : text = (w ++ r₂.1) ++ k := by
    rw [show text = _ from hw, hblanks, hk, hend, List.append_nil, List.append_assoc]
  -- the last letters differ
  have hlast : (text.map lowerUnit).getLast? = some 107 := by
    rw [hsplit, List.map_append, hok, lower_ok, List.getLast?_append]
    rfl
  have hlast' : (text.map lowerUnit).getLast? = some 100 := by
    rw [htext, List.map_append, List.map_cons, hv, List.getLast?_append]
    rfl
  rw [hlast] at hlast'
  cases hlast'

/-! ### Reports of infections -/

/-- `stream: <name> FOUND`. -/
def infectionReport (name : Bytes) : Bytes := asciiBytes "stream: " ++ name ++ asciiBytes " FOUND"

/-- `stream: OK`. -/
def okReply : Bytes := asciiBytes "stream: OK"

theorem joinBreaks_append {s t : Text} (h : ∀ c ∈ s, isBreakUnit c = false) (hne : s ≠ [])
    (inRun : Bool) : joinBreaks inRun (s ++ t) = s ++ joinBreaks false t := by
  induction s generalizing inRun with
  | nil => exact absurd rfl hne
  | cons c s ih =>
    rw [List.forall_mem_cons] at h
    rw [List.cons_append, joinBreaks, if_neg (by rw [h.1]; simp)]
    rcases s with _ | ⟨d, s⟩
    · rfl
    · rw [ih h.2 (by simp)]
      rfl

theorem joinBreaks_append_of_head {s t : Text} {c : ℕ} (hc : isBreakUnit c = false)
    (inRun : Bool) :
    joinBreaks inRun (s ++ c :: t) = joinBreaks inRun s ++ joinBreaks false (c :: t) := by
  induction s generalizing inRun with
  | nil =>
    have hunit : ∀ d ∈ [c], isBreakUnit d = false := by simpa using hc
    rw [List.nil_append, ← List.singleton_append, joinBreaks_append hunit (by simp),
      joinBreaks_append hunit (by simp)]
    rfl
  | cons d s ih =>
    rw [List.cons_append, joinBreaks, joinBreaks]
    split
    · split
      · exact ih true
      · rw [ih true, List.cons_append]
    · rw [ih false, List.cons_append]

theorem joinBreaks_ne_nil {s : Text} (hne : s ≠ []) : joinBreaks false s ≠ [] := by
  rcases s with _ | ⟨c, s⟩
  · exact absurd rfl hne
  · rw [joinBreaks]
    split <;> simp

/-- A text that neither begins nor ends with white space is trimmed already. -/
theorem trimText_eq_self {t : Text} {c d : ℕ} (hc : isSpaceUnit c = false)
    (hd : isSpaceUnit d = false) : trimText (c :: (t ++ [d])) = c :: (t ++ [d]) := by
  unfold trimText
  rw [List.dropWhile_cons_of_neg (by rw [hc]; simp), List.reverse_cons, List.reverse_append,
    List.reverse_singleton, List.singleton_append, List.cons_append,
    List.dropWhile_cons_of_neg (by rw [hd]; simp)]
  simp

/-- The text of a report, before it is cut. -/
theorem printableText_infectionReport {name : Bytes} (hne : name ≠ []) :
    ∃ found, found ≠ [] ∧ (∀ c ∈ found, isDotUnit c = true) ∧
      printableText (decodeUtf8 (infectionReport name)) =
        asciiText "stream: " ++ (found ++ asciiText " FOUND") := by
  have hbefore : ∀ b ∈ asciiBytes "stream: ", b.toNat < 0x80 := by simp [asciiBytes]
  have hafter : ∀ b ∈ asciiBytes " FOUND", b.toNat < 0x80 := by simp [asciiBytes]
  have hdecode : decodeUtf8 (infectionReport name) =
      asciiText "stream: " ++ (decodeUtf8 name ++ 32 :: asciiText "FOUND") := by
    unfold infectionReport
    rw [decodeUtf8_append_ascii (by simp [asciiBytes]) hafter, decodeUtf8_ascii_append hbefore,
      List.append_assoc]
    rfl
  have hjoin : joinBreaks false (decodeUtf8 (infectionReport name)) =
      asciiText "stream: " ++ (joinBreaks false (decodeUtf8 name) ++ asciiText " FOUND") := by
    rw [hdecode, joinBreaks_append (by decide +kernel) (by decide +kernel),
      joinBreaks_append_of_head (by decide)]
    rfl
  refine ⟨(joinBreaks false (decodeUtf8 name)).map printableUnit, ?_, ?_, ?_⟩
  · intro hnil
    exact joinBreaks_ne_nil (decodeUtf8From_ne_nil (.inr hne)) (List.map_eq_nil_iff.mp hnil)
  · intro c hc
    obtain ⟨d, _, rfl⟩ := List.mem_map.mp hc
    have hrange : 32 ≤ printableUnit d ∧ printableUnit d ≤ 126 := by
      unfold printableUnit
      split <;> omega
    unfold isDotUnit
    simp only [Bool.and_eq_true, decide_eq_true_eq]
    omega
  · unfold printableText
    rw [hjoin, List.map_append, List.map_append,
      show (asciiText "stream: ").map printableUnit = asciiText "stream: " by simp [asciiText, printableUnit],
      show (asciiText " FOUND").map printableUnit = asciiText " FOUND" by simp [asciiText, printableUnit]]
    generalize (joinBreaks false (decodeUtf8 name)).map printableUnit = found
    have := trimText_eq_self (t := asciiText "tream: " ++ (found ++ asciiText " FOUN"))
      (show isSpaceUnit 115 = false by decide) (show isSpaceUnit 68 = false by decide)
    rwa [List.append_assoc, List.append_assoc] at this

/-- The cut text of a report is matched exactly if it still ends in `FOUND`. -/
theorem infectedName_infectionReport (hne : name ≠ []) :
    (infectedName (cleanScannerText (decodeUtf8 (infectionReport name)))).isSome = true ↔
      EndsInFound (cleanScannerText (decodeUtf8 (infectionReport name))) := by
  constructor
  · intro h
    obtain ⟨found, hfound⟩ := Option.isSome_iff_exists.mp h
    exact endsInFound_of_infectedName hfound
  · rintro ⟨u, c, v, htext, hc, hv⟩
    obtain ⟨found, hfound, hdots, hprintable⟩ := printableText_infectionReport hne
    have hlength : v.length = 5 := by
      have := congrArg List.length hv
      rwa [List.length_map] at this
    -- the cut text begins with the same eight characters, and is longer than these and the end
    have hcut : cleanScannerText (decodeUtf8 (infectionReport name)) =
        asciiText "stream: " ++ (found ++ asciiText " FOUND").take 492 := by
      unfold cleanScannerText
      rw [hprintable, List.take_append, show (asciiText "stream: ").length = 8 by simp [asciiText],
        List.take_of_length_le (by simp [asciiText])]
    have hfound1 : 1 ≤ found.length := List.length_pos_iff.mpr hfound
    have hu : 9 ≤ u.length := by
      have hlen := congrArg List.length (htext.symm.trans hcut)
      rw [List.length_append, List.length_cons, List.length_append, List.length_take,
        List.length_append, show (asciiText "stream: ").length = 8 by simp [asciiText],
        show (asciiText " FOUND").length = 6 by simp [asciiText]] at hlen
      omega
    have hu8 : 8 ≤ u.length := by omega
    have hstream : 8 ≤ (asciiText "stream: ").length := by simp [asciiText]
    have hsplit : u = asciiText "stream: " ++ u.drop 8 := by
      have htake := congrArg (List.take 8) (htext.symm.trans hcut)
      rw [List.take_append_of_le_length hu8, List.take_append_of_le_length hstream,
        List.take_of_length_le (show (asciiText "stream: ").length ≤ 8 by simp [asciiText])] at htake
      rw [← htake, List.take_append_drop]
    have hdrop : ∀ d ∈ u.drop 8, isDotUnit d = true := by
      intro d hd
      have hmem : d ∈ (found ++ asciiText " FOUND").take 492 := by
        have hrest := congrArg (List.drop 8) (htext.symm.trans hcut)
        rw [List.drop_append_of_le_length hu8, List.drop_append_of_le_length hstream,
          List.drop_of_length_le (show (asciiText "stream: ").length ≤ 8 by simp [asciiText]),
          List.nil_append] at hrest
        rw [← hrest]
        exact List.mem_append_left _ hd
      rcases List.mem_append.mp (List.mem_of_mem_take hmem) with h | h
      · exact hdots d h
      · exact (show ∀ d ∈ asciiText " FOUND", isDotUnit d = true by simp [asciiText, isDotUnit]) d h
    have hmatch := @infectedName_isSome (asciiText "stream:") [32] (u.drop 8) [c] v lower_stream
      (by decide) (by decide) hdrop
      (by
        intro hnil
        have := congrArg List.length hnil
        rw [List.length_drop, List.length_nil] at this
        omega) (by simpa using hc) (by simp) hv
    rw [htext, hsplit, List.append_assoc]
    exact hmatch

/-! ### Verdicts -/

/-- The scanner is asked about the content: it is not too large, and the version has been told. -/
def Asked (options : ClamAvOptions) (bytes : Bytes) (versionEvents : List SocketEvent) : Prop :=
  bytes.length ≤ options.maxBytes ∧ ∃ text, clamRequest versionEvents = some (.ok text)

/-- The status of a scan. -/
def scanStatus (options : ClamAvOptions) (sha256 : Bytes → ℕ) (bytes : Bytes)
    (versionEvents events : List SocketEvent) : Option MalwareScanStatus :=
  (scan options sha256 bytes versionEvents events).map (·.status)

/-- What a scan should send, and say about a reply. -/
structure VerdictRight (options : ClamAvOptions) (sha256 : Bytes → ℕ) (bytes : Bytes)
    (versionEvents events : List SocketEvent) : Prop where
  /-- The frames are not empty, not too long, and the content. -/
  frames : Framed (scanWrites options bytes).tail.flatten (scanFrames options bytes) ∧
    (scanFrames options bytes).flatten = bytes ∧
    ∀ frame ∈ scanFrames options bytes, frame ≠ [] ∧ frame.length ≤ options.chunkBytes
  /-- Only the complete reply `stream: OK` is clean. -/
  clean : scanStatus options sha256 bytes versionEvents events = some .clean →
    ∃ size, completeReply events = some (okReply, size)
  /-- A reply that is cut off, empty or oversized is not clean. -/
  notClean : (∀ reply size, completeReply events = some (reply, size) →
      reply = [] ∨ 8192 < reply.length) →
    scanStatus options sha256 bytes versionEvents events ≠ some .clean
  /-- A complete report of an infection is one, however long the name. -/
  infected : Asked options bytes versionEvents → ∀ name size, name ≠ [] →
    completeReply events = some (infectionReport name, size) →
    scanStatus options sha256 bytes versionEvents events = some .infected
  /-- What a complete report is about is rejected. -/
  rejected : Asked options bytes versionEvents → ∀ name size, name ≠ [] →
    completeReply events = some (infectionReport name, size) →
    ∀ result, scan options sha256 bytes versionEvents events = some result → ∀ disposition,
      (resolveScanDisposition result.toMalwareScanResult disposition).documentStatus = .rejected

/-- The reply reads as `stream: OK`: up to letter case, white space and line breaks. -/
def ReadsOk (reply : Bytes) : Prop := isOkResponse (cleanScannerText (decodeUtf8 reply)) = true

/-- The replies about which the scan is right. -/
structure RepliesPlainly (events : List SocketEvent) : Prop where
  /-- A complete reply that reads as `stream: OK` is that. -/
  complete : ∀ reply size, completeReply events = some (reply, size) → size ≤ 8192 →
    ReadsOk reply → reply = okReply
  /-- A reply that is cut off does not read so. -/
  ended : ∀ reply, endedReply events = some reply → reply.length ≤ 8192 → ¬ReadsOk reply
  /-- A report of an infection comes within the limit of bytes, and has an end within the first 500
  characters of its cleaned text, as every shorter one has. -/
  found : ∀ name size, name ≠ [] → completeReply events = some (infectionReport name, size) →
    size ≤ 8192 ∧ EndsInFound (cleanScannerText (decodeUtf8 (infectionReport name)))

theorem replyResult_status (base : ClamAvResult) (response : Text) :
    (replyResult base response).status =
      if (infectedName response).isSome then .infected
      else if isOkResponse response then .clean else .error := by
  unfold replyResult
  cases infectedName response with
  | some name => rfl
  | none =>
    show (if isOkResponse response then _ else _ : ClamAvResult).status = _
    split <;> rfl

variable {sha256 : Bytes → ℕ} {versionEvents : List SocketEvent}

/-- The status that a reply comes to. -/
def replyStatus : Except ScanFailure Text → MalwareScanStatus
  | .error .timeout => .timeout
  | .error .other => .error
  | .ok text =>
    if (infectedName (cleanScannerText text)).isSome then .infected
    else if isOkResponse (cleanScannerText text) then .clean else .error

/-- The status of a scanner that was asked is that of its reply. -/
theorem scanStatus_of_asked (h : Asked options bytes versionEvents) :
    scanStatus options sha256 bytes versionEvents events = (clamRequest events).map replyStatus := by
  obtain ⟨hsize, version, hversion⟩ := h
  unfold scanStatus scan
  rw [if_neg (Nat.not_lt.mpr hsize), hversion]
  show ((clamRequest events).map _).map _ = _
  rw [Option.map_map]
  refine Option.map_congr fun reply _ => ?_
  rcases reply with failure | text
  · cases failure <;> rfl
  · exact replyResult_status _ _

/-- A scanner that was not asked has not found anything clean. -/
theorem scanStatus_of_not_asked (h : ¬Asked options bytes versionEvents) :
    scanStatus options sha256 bytes versionEvents events ≠ some .clean := by
  unfold scanStatus scan
  by_cases hsize : options.maxBytes < bytes.length
  · rw [if_pos hsize]
    simp
  · rw [if_neg hsize]
    rcases hversion : clamRequest versionEvents with _ | failure | text
    · simp
    · cases failure <;> exact fun hclean => absurd (Option.some.inj hclean) (by simp [failureResult])
    · exact absurd ⟨Nat.not_lt.mp hsize, text, hversion⟩ h

/-- A clean result comes from a reply that reads as `stream: OK`. -/
theorem scanStatus_clean_iff (h : Asked options bytes versionEvents) :
    scanStatus options sha256 bytes versionEvents events = some .clean ↔
      (∃ reply size, completeReply events = some (reply, size) ∧ size ≤ 8192 ∧ ReadsOk reply) ∨
        ∃ reply, completeReply events = none ∧ endedReply events = some reply ∧
          reply.length ≤ 8192 ∧ ReadsOk reply := by
  rw [scanStatus_of_asked h]
  constructor
  · intro hclean
    obtain ⟨reply, hreply, hstatus⟩ := Option.map_eq_some_iff.mp hclean
    rcases reply with failure | text
    · cases failure <;> cases hstatus
    · have hok : isOkResponse (cleanScannerText text) = true := by
        by_contra hok
        rw [replyStatus, if_neg hok] at hstatus
        split at hstatus <;> cases hstatus
      rcases replyFrom_ok (Nat.zero_le _) hreply with
        ⟨reply, size, hcomplete, hsize, rfl⟩ | ⟨reply, hnone, hended, hsize, rfl⟩
      · exact .inl ⟨reply, size, hcomplete, hsize, hok⟩
      · exact .inr ⟨reply, hnone, hended, hsize, hok⟩
  · have hread {reply : Bytes} (hreply : clamRequest events = some (.ok (decodeUtf8 reply)))
        (hok : ReadsOk reply) : (clamRequest events).map replyStatus = some .clean := by
      have hok' : isOkResponse (cleanScannerText (decodeUtf8 reply)) = true := hok
      rw [hreply, Option.map_some, replyStatus, infectedName_of_isOkResponse hok', if_neg (by simp),
        if_pos hok']
    rintro (⟨reply, size, hcomplete, hsize, hok⟩ | ⟨reply, -, hended, hsize, hok⟩)
    · refine hread ?_ hok
      rw [clamRequest, replyFrom_complete hcomplete, if_pos hsize]
    · exact hread (replyFrom_ended hended hsize) hok

/-- A report of an infection is one exactly if it comes within the limits. -/
theorem scanStatus_infectionReport (h : Asked options bytes versionEvents) (hne : name ≠ [])
    (hreport : completeReply events = some (infectionReport name, size)) :
    scanStatus options sha256 bytes versionEvents events = some .infected ↔
      size ≤ 8192 ∧ EndsInFound (cleanScannerText (decodeUtf8 (infectionReport name))) := by
  rw [scanStatus_of_asked h, clamRequest, replyFrom_complete hreport]
  by_cases hsize : size ≤ 8192
  · rw [if_pos hsize, and_iff_right hsize, ← infectedName_infectionReport hne]
    rw [Option.map_some, replyStatus]
    constructor
    · intro hstatus
      by_contra hnone
      rw [if_neg hnone] at hstatus
      split at hstatus <;> cases hstatus
    · intro hsome
      rw [if_pos hsome]
  · rw [if_neg hsize]
    constructor
    · intro hstatus
      cases hstatus
    · rintro ⟨hle, -⟩
      exact absurd hle hsize

/-- **Verdicts.**  A scan is right about its reply exactly if the scanner was not asked, or replies
    plainly. -/
theorem verdict_right_iff (options : ClamAvOptions) (sha256 : Bytes → ℕ) (bytes : Bytes)
    (versionEvents events : List SocketEvent) :
    VerdictRight options sha256 bytes versionEvents events ↔
      (Asked options bytes versionEvents → RepliesPlainly events) := by
  constructor
  · intro h hasked
    refine ⟨fun reply size hreply hsize hok => ?_, fun reply hended hsize hok => ?_,
      fun name size hne hreport => ?_⟩
    · obtain ⟨size', hok'⟩ := h.clean
        ((scanStatus_clean_iff hasked).mpr (.inl ⟨reply, size, hreply, hsize, hok⟩))
      rw [hreply] at hok'
      exact congrArg Prod.fst (Option.some.inj hok')
    · cases hcomplete : completeReply events with
      | none =>
        obtain ⟨size, hok'⟩ := h.clean
          ((scanStatus_clean_iff hasked).mpr (.inr ⟨reply, hcomplete, hended, hsize, hok⟩))
        rw [hcomplete] at hok'
        cases hok'
      | some found =>
        rw [endedReply, endedReplyFrom_of_complete hcomplete] at hended
        cases hended
    · exact (scanStatus_infectionReport hasked hne hreport).mp
        (h.infected hasked name size hne hreport)
  · intro h
    have hclean : scanStatus options sha256 bytes versionEvents events = some .clean →
        ∃ size, completeReply events = some (okReply, size) := by
      intro hstatus
      by_cases hasked : Asked options bytes versionEvents
      · rcases (scanStatus_clean_iff hasked).mp hstatus with
          ⟨reply, size, hreply, hsize, hok⟩ | ⟨reply, -, hended, hsize, hok⟩
        · rw [(h hasked).complete reply size hreply hsize hok] at hreply
          exact ⟨size, hreply⟩
        · exact absurd hok ((h hasked).ended reply hended hsize)
      · exact absurd hstatus (scanStatus_of_not_asked hasked)
    have hinfected : Asked options bytes versionEvents → ∀ name size, name ≠ [] →
        completeReply events = some (infectionReport name, size) →
        scanStatus options sha256 bytes versionEvents events = some .infected :=
      fun hasked name size hne hreport => (scanStatus_infectionReport hasked hne hreport).mpr
        ((h hasked).found name size hne hreport)
    refine ⟨⟨framed_scanWrites options bytes, ?_⟩, hclean, ?_, hinfected, ?_⟩
    · exact flatten_scanFramesFrom 0
    · intro hbad hstatus
      obtain ⟨size, hok⟩ := hclean hstatus
      rcases hbad okReply size hok with hnil | hlong
      · exact absurd hnil (by decide +kernel)
      · exact absurd hlong (by decide +kernel)
    · intro hasked name size hne hreport result hresult disposition
      have hstatus := hinfected hasked name size hne hreport
      rw [scanStatus, hresult] at hstatus
      have hstatus' : result.status = .infected := Option.some.inj hstatus
      unfold resolveScanDisposition
      rw [hstatus', if_neg (by simp), if_pos rfl]

/-- A reply that is cut off after `stream: OK` is clean; a report of a name of 600 letters is an error,
    which the bypass of the demo turns into a clean document. -/
theorem cut_off_reply_is_clean :
    ¬VerdictRight .default (fun _ => 0) [] [.data [0]]
      [.data (asciiBytes "stream: OK"), .endOfStream] ∧
    ¬VerdictRight .default (fun _ => 0) [] [.data [0]]
      [.data (infectionReport (List.replicate 600 65) ++ [0])] := by
  have hasked : Asked .default [] [.data [0]] := ⟨Nat.zero_le _, [], by decide +kernel⟩
  constructor
  · intro h
    obtain ⟨size, hcomplete⟩ := h.clean (by decide +kernel)
    exact absurd hcomplete (by
      rw [show completeReply [.data (asciiBytes "stream: OK"), .endOfStream] = none by
        decide +kernel]
      simp)
  · intro h
    have hne : List.replicate 600 (65 : UInt8) ≠ [] := by decide
    have hreport : completeReply [.data (infectionReport (List.replicate 600 65) ++ [0])] =
        some (infectionReport (List.replicate 600 65), 615) := by decide +kernel
    obtain ⟨u, c, v, hcut, -, hv⟩ := ((scanStatus_infectionReport hasked hne hreport).mp
      (h.infected hasked _ _ hne hreport)).2
    have hletters : (cleanScannerText (decodeUtf8 (infectionReport (List.replicate 600 65)))).getLast? =
        some 65 := by decide +kernel
    have hlast : ((u ++ c :: v).map lowerUnit).getLast? = some 100 := by
      rw [List.map_append, List.map_cons, hv, List.getLast?_append]
      rfl
    rw [← hcut, List.getLast?_map, hletters] at hlast
    exact absurd hlast (by decide)

end ResearchWorkbench.Scanner
