import ResearchWorkbench.Services.BoundedReads

namespace ResearchWorkbench.BoundedReads

/-!
# What the readers with a limit yield

* `exactly` — the content, if it is within the limit, and an error if it is not;
* `IsFileOf`, `Grows` — a handle of a file, with short reads, that may grow between them;
* `readFileLoop_spec`, `readS3Loop_append`, `readJsonLoop_append` — one lemma for each loop, by
  induction on what is left to read;
* `ReadsExactly`, `reads_exactly` — the three readers, for all contents, limits and chunkings.
-/

variable {ε α : Type} {limit total offset call : ℕ} {chunks pieces : List Bytes} {rest : List Delivery}

/-- The content, if it is within the limit. -/
def exactly (limit : ℕ) (tooLarge : ε) (content : Bytes) : Except ε Bytes :=
  if content.length ≤ limit then .ok content else .error tooLarge

/-! ### Joining the chunks -/

theorem copyChunks_append {filled room : Bytes} (h : room.length = chunks.flatten.length) :
    copyChunks (filled ++ room) filled.length chunks = filled ++ chunks.flatten := by
  induction chunks generalizing filled room with
  | nil =>
    have hroom : room = [] := List.length_eq_zero_iff.mp h
    rw [hroom]
    rfl
  | cons chunk chunks ih =>
    rw [List.flatten_cons, List.length_append] at h
    have hset : setBytes (filled ++ room) filled.length chunk =
        (filled ++ chunk) ++ room.drop chunk.length := by
      rw [setBytes, List.take_left, List.drop_append]
      simp
    have hroom : (room.drop chunk.length).length = chunks.flatten.length := by
      rw [List.length_drop]
      omega
    show copyChunks (setBytes (filled ++ room) filled.length chunk)
      (filled.length + chunk.length) chunks = _
    rw [hset, ← List.length_append, ih hroom, List.flatten_cons, List.append_assoc]

/-- The joined chunks are the chunks one after the other. -/
theorem joinChunks_eq (h : total = chunks.flatten.length) :
    joinChunks chunks total = chunks.flatten := by
  have := @copyChunks_append chunks [] (List.replicate total 0) (by rw [List.length_replicate, h])
  rwa [List.nil_append, List.nil_append] at this

/-! ### Files -/

/-- The handle reads a file whose contents at its reads are these, in pieces of any size: a read
    within the file gives something. -/
def BoundedReadHandle.IsFileOf (handle : BoundedReadHandle) (contents : ℕ → Bytes) : Prop :=
  ∀ call length position, ∃ k,
    handle.read call length position = ((contents call).drop position).take k ∧
      (0 < length → position < (contents call).length → 0 < k)

/-- What a file holds stays, whatever is appended. -/
def Grows (contents : ℕ → Bytes) : Prop := ∀ call, contents call <+: contents (call + 1)

variable {handle : BoundedReadHandle} {contents : ℕ → Bytes}

/-- A read that gives nothing is at the end of the file. -/
theorem length_le_of_read_nil (h : handle.IsFileOf contents) {length : ℕ} (hlength : 0 < length)
    (hread : (handle.read call length total).length = 0) : (contents call).length ≤ total := by
  obtain ⟨k, hk, hpos⟩ := h call length total
  by_contra hlt
  have := hpos hlength (by omega)
  rw [hk, List.length_take, List.length_drop] at hread
  omega

/-- A read continues what has been read. -/
theorem take_append_read (h : handle.IsFileOf contents) (hread : total ≤ (contents call).length)
    (length : ℕ) :
    (contents call).take total ++ handle.read call length total =
        (contents call).take (total + (handle.read call length total).length) ∧
      total + (handle.read call length total).length ≤ (contents call).length := by
  obtain ⟨k, hk, _⟩ := h call length total
  have hlength : (handle.read call length total).length = min k ((contents call).length - total) := by
    rw [hk, List.length_take, List.length_drop]
  refine ⟨?_, by omega⟩
  rw [hlength, hk, List.take_add]
  congr 1
  rcases Nat.le_total k ((contents call).length - total) with hle | hle
  · rw [Nat.min_eq_left hle]
  · rw [Nat.min_eq_right hle, List.take_of_length_le (by rw [List.length_drop]; omega),
      List.take_of_length_le (by rw [List.length_drop])]

/-- What a part of a file is, it stays. -/
theorem take_eq_of_prefix {content content' : Bytes} (h : content <+: content')
    (hle : total ≤ content.length) : content.take total = content'.take total := by
  obtain ⟨added, rfl⟩ := h
  rw [List.take_append_of_le_length hle]

/-- **Files.**  The loop comes to an end, with all that the file holds at its last read, or with an
    error if that is more than the limit; by induction on the number of bytes up to the limit. -/
theorem readFileLoop_spec (h : handle.IsFileOf contents) (hgrows : Grows contents)
    (hchunks : chunks.flatten = (contents call).take total)
    (htotal : total ≤ (contents call).length) (hlimit : total ≤ limit) :
    ∃ last, (readFileLoop handle limit call chunks total).result =
        exactly limit objectTooLarge (contents last) ∧
      (∀ n ∈ (readFileLoop handle limit call chunks total).held, n ≤ limit + 1) ∧
      (readFileLoop handle limit call chunks total).joined ≤ limit + limit := by
  obtain ⟨left, hleft⟩ : ∃ left, limit - total ≤ left := ⟨_, le_rfl⟩
  induction left using Nat.strong_induction_on generalizing call chunks total with
  | _ left ih =>
    set length := min readChunkBytes (limit - total + 1) with hlength
    have hbuffer : total + length ≤ limit + 1 := by omega
    have hpositive : 0 < length := by
      have : 0 < readChunkBytes := by decide
      omega
    rw [readFileLoop, dif_pos hlimit]
    simp only [← hlength]
    by_cases hzero : (handle.read call length total).length = 0
    · -- the end of the file
      rw [dif_pos hzero]
      have hend := length_le_of_read_nil h hpositive hzero
      have hall : chunks.flatten = contents call := by
        rw [hchunks, List.take_of_length_le hend]
      have hjoin : joinChunks chunks total = contents call := by
        rw [joinChunks_eq (by rw [hall]; omega), hall]
      refine ⟨call, ?_, ?_, by show total + total ≤ _; omega⟩
      · show Except.ok (joinChunks chunks total) = _
        rw [hjoin, exactly, if_pos (by omega)]
      · intro n hn
        rcases List.mem_cons.mp hn with rfl | hn
        · exact hbuffer
        · cases hn
    · rw [dif_neg hzero]
      obtain ⟨htake, hle⟩ := take_append_read h htotal length
      split
      · -- one byte more than the limit has been read
        rename_i hmore
        refine ⟨call, ?_, ?_, Nat.zero_le _⟩
        · show Except.error objectTooLarge = _
          rw [exactly, if_neg (by omega)]
        · intro n hn
          rcases List.mem_cons.mp hn with rfl | hn
          · exact hbuffer
          · cases hn
      · rename_i hmore
        have hgrown := hgrows call
        have hnext : (chunks ++ [handle.read call length total]).flatten =
            (contents (call + 1)).take (total + (handle.read call length total).length) := by
          rw [List.flatten_append, List.flatten_singleton, hchunks, htake]
          exact take_eq_of_prefix hgrown hle
        obtain ⟨last, hresult, hheld, hjoined⟩ :=
          ih (limit - (total + (handle.read call length total).length)) (by omega) hnext
            (hle.trans hgrown.length_le) (by omega) le_rfl
        refine ⟨last, hresult, ?_, hjoined⟩
        intro n hn
        rcases List.mem_cons.mp hn with rfl | hn
        · exact hbuffer
        · exact hheld n hn

/-! ### Streams -/

/-- A stream up to some point: the loop has failed, or has all its chunks. -/
theorem readS3Loop_append (hchunks : total = chunks.flatten.length) (hlimit : total ≤ limit) :
    (readS3Loop limit (pieces.map .chunk ++ rest) chunks total).result =
      if limit < total + pieces.flatten.length then .error objectTooLarge
      else (readS3Loop limit rest (chunks ++ pieces) (total + pieces.flatten.length)).result := by
  induction pieces generalizing chunks total with
  | nil =>
    rw [if_neg (by simpa using hlimit)]
    simp
  | cons piece pieces ih =>
    rw [List.flatten_cons, List.length_append]
    show (if limit - total < piece.length then Reading.failed objectTooLarge else _).result = _
    split
    · rw [if_pos (by omega)]
      rfl
    · have hnext : total + piece.length = (chunks ++ [piece]).flatten.length := by
        rw [List.flatten_append, List.length_append, hchunks, List.flatten_singleton]
      refine (ih hnext (by omega)).trans ?_
      rw [← Nat.add_assoc, List.append_assoc]
      rfl

/-- A chunk is held together with no more than the limit. -/
theorem readS3Loop_held (hlimit : total ≤ limit) {n : ℕ}
    (hn : n ∈ (readS3Loop limit rest chunks total).held) :
    ∃ value, .chunk value ∈ rest ∧ n ≤ limit + value.length := by
  induction rest generalizing chunks total with
  | nil => cases hn
  | cons delivery rest ih =>
    cases delivery with
    | nonBinary => cases hn
    | chunk value =>
      rcases List.mem_cons.mp hn with rfl | hn
      · exact ⟨value, List.mem_cons_self, by omega⟩
      · split at hn
        · cases hn
        · obtain ⟨other, hother, hle⟩ := ih (by omega) hn
          exact ⟨other, List.mem_cons_of_mem _ hother, hle⟩

theorem readS3Loop_joined (hlimit : total ≤ limit) :
    (readS3Loop limit rest chunks total).joined ≤ limit + limit := by
  induction rest generalizing chunks total with
  | nil =>
    show total + total ≤ _
    omega
  | cons delivery rest ih =>
    cases delivery with
    | nonBinary => exact Nat.zero_le _
    | chunk value =>
      show (if limit - total < value.length then Reading.failed objectTooLarge else _).joined ≤ _
      split
      · exact Nat.zero_le _
      · exact ih (by omega)

variable {parse : Bytes → Option α} {response : Response} {more : List Bytes}

/-- A response up to some point: the loop has failed, or has all its chunks. -/
theorem readJsonLoop_append (hchunks : total = chunks.flatten.length) (hlimit : total ≤ limit) :
    (readJsonLoop parse response limit (pieces ++ more) chunks total).result =
      if limit < total + pieces.flatten.length then .error response.tooLarge
      else (readJsonLoop parse response limit more (chunks ++ pieces)
        (total + pieces.flatten.length)).result := by
  induction pieces generalizing chunks total with
  | nil =>
    rw [if_neg (by simpa using hlimit)]
    simp
  | cons piece pieces ih =>
    rw [List.flatten_cons, List.length_append]
    show (if limit < total + piece.length then Reading.failed response.tooLarge else _).result = _
    split
    · rw [if_pos (by omega)]
      rfl
    · have hnext : total + piece.length = (chunks ++ [piece]).flatten.length := by
        rw [List.flatten_append, List.length_append, hchunks, List.flatten_singleton]
      refine (ih hnext (by omega)).trans ?_
      rw [← Nat.add_assoc, List.append_assoc]
      rfl

theorem readJsonLoop_held (hlimit : total ≤ limit) {n : ℕ}
    (hn : n ∈ (readJsonLoop parse response limit more chunks total).held) :
    ∃ value ∈ more, n ≤ limit + value.length := by
  induction more generalizing chunks total with
  | nil => cases hn
  | cons value more ih =>
    rcases List.mem_cons.mp hn with rfl | hn
    · exact ⟨value, List.mem_cons_self, by omega⟩
    · split at hn
      · cases hn
      · obtain ⟨other, hother, hle⟩ := ih (by omega) hn
        exact ⟨other, List.mem_cons_of_mem _ hother, hle⟩

theorem readJsonLoop_joined (hlimit : total ≤ limit) :
    (readJsonLoop parse response limit more chunks total).joined ≤ limit + limit := by
  induction more generalizing chunks total with
  | nil =>
    show total + total ≤ _
    omega
  | cons value more ih =>
    show (if limit < total + value.length then Reading.failed response.tooLarge else _).joined ≤ _
    split
    · exact Nat.zero_le _
    · exact ih (by omega)

/-! ### All readers -/

/-- What the three readers do with this content under this limit. -/
structure ReadsExactly (parse : Bytes → Option α) (limit : ℕ) (content : Bytes) : Prop where
  /-- Whatever the sizes of the reads, a file is read exactly. -/
  file : ∀ handle : BoundedReadHandle, handle.IsFileOf (fun _ => content) →
    (readFileHandleBounded handle limit).result = exactly limit objectTooLarge content
  /-- Whatever the chunks, an object is read exactly. -/
  object : ∀ chunks : List Bytes, chunks.flatten = content →
    (readS3Body (chunks.map .chunk) limit).result = exactly limit objectTooLarge content
  /-- Whatever the chunks, the value of a response is that of exactly its content, unless it declares
  more than the limit. -/
  response : ∀ (response : Response) (chunks : List Bytes), response.body = some chunks →
    chunks.flatten = content →
    (readJsonWithLimit parse response limit).result =
      if response.declaresMore limit then .error response.tooLarge
      else exactly limit response.tooLarge content >>= response.parsed parse
  /-- A response without a body has no content. -/
  noBody : ∀ response : Response, response.body = none →
    (readJsonWithLimit parse response limit).result =
      .error (if response.declaresMore limit then response.tooLarge else response.empty)
  /-- What comes after more than the limit is not looked at, were it endless. -/
  endless : limit < content.length → ∀ (chunks : List Bytes), chunks.flatten = content →
    (∀ rest : List Delivery,
      (readS3Body (chunks.map .chunk ++ rest) limit).result = .error objectTooLarge) ∧
    ∀ (response : Response) (rest : List Bytes), response.body = some (chunks ++ rest) →
      (readJsonWithLimit parse response limit).result = .error response.tooLarge

/-- The readers hold no more than the limit, one byte and one chunk while they read, and one copy of
    what they have read at the end. -/
structure HoldsLittle (parse : Bytes → Option α) (limit : ℕ) : Prop where
  file : ∀ (handle : BoundedReadHandle) (contents : ℕ → Bytes), handle.IsFileOf contents →
    Grows contents →
    (∀ n ∈ (readFileHandleBounded handle limit).held, n ≤ limit + 1) ∧
      (readFileHandleBounded handle limit).joined ≤ limit + limit
  object : ∀ body : List Delivery,
    (∀ n ∈ (readS3Body body limit).held, ∃ value, .chunk value ∈ body ∧ n ≤ limit + value.length) ∧
      (readS3Body body limit).joined ≤ limit + limit
  response : ∀ response : Response,
    (∀ n ∈ (readJsonWithLimit parse response limit).held,
      ∃ chunks, response.body = some chunks ∧ ∃ value ∈ chunks, n ≤ limit + value.length) ∧
      (readJsonWithLimit parse response limit).joined ≤ limit + limit

theorem readJsonWithLimit_body (hbody : response.body = some pieces)
    (hdeclared : response.declaresMore limit = false) :
    readJsonWithLimit parse response limit = readJsonLoop parse response limit pieces [] 0 := by
  unfold readJsonWithLimit
  rw [hdeclared, hbody]
  rfl

theorem readsExactly (parse : Bytes → Option α) (limit : ℕ) (content : Bytes) :
    ReadsExactly parse limit content where
  file handle h := by
    obtain ⟨_, hresult, _⟩ := @readFileLoop_spec limit 0 0 [] handle (fun _ => content) h
      (fun _ => List.prefix_rfl) rfl (Nat.zero_le _) (Nat.zero_le _)
    exact hresult
  object chunks h := by
    have := @readS3Loop_append limit 0 [] chunks [] rfl (Nat.zero_le _)
    rw [List.append_nil, Nat.zero_add, List.nil_append, h] at this
    refine this.trans ?_
    rcases Nat.lt_or_ge limit content.length with hlt | hle
    · rw [if_pos hlt, exactly, if_neg (Nat.not_le.mpr hlt)]
    · rw [if_neg (Nat.not_lt.mpr hle), exactly, if_pos hle]
      show Except.ok (joinChunks chunks content.length) = _
      rw [joinChunks_eq (by rw [h]), h]
  response response chunks hbody h := by
    cases hdeclared : response.declaresMore limit with
    | true =>
      unfold readJsonWithLimit
      rw [hdeclared]
      rfl
    | false =>
      rw [readJsonWithLimit_body hbody hdeclared]
      have := @readJsonLoop_append α limit 0 [] chunks parse response [] rfl (Nat.zero_le _)
      rw [List.append_nil, Nat.zero_add, List.nil_append, h] at this
      refine this.trans ?_
      rcases Nat.lt_or_ge limit content.length with hlt | hle
      · rw [if_pos hlt, exactly, if_neg (Nat.not_le.mpr hlt)]
        rfl
      · rw [if_neg (Nat.not_lt.mpr hle), exactly, if_pos hle]
        show response.parsed parse (joinChunks chunks content.length) = _
        rw [joinChunks_eq (by rw [h]), h]
        rfl
  noBody response hbody := by
    unfold readJsonWithLimit
    rw [hbody]
    split <;> rfl
  endless hmore chunks h := by
    constructor
    · intro rest
      have := @readS3Loop_append limit 0 [] chunks rest rfl (Nat.zero_le _)
      rwa [h, Nat.zero_add, if_pos hmore] at this
    · intro response rest hbody
      cases hdeclared : response.declaresMore limit with
      | true =>
        unfold readJsonWithLimit
        rw [hdeclared]
        rfl
      | false =>
        rw [readJsonWithLimit_body hbody hdeclared]
        have := @readJsonLoop_append α limit 0 [] chunks parse response rest rfl (Nat.zero_le _)
        rwa [h, Nat.zero_add, if_pos hmore] at this

theorem holdsLittle (parse : Bytes → Option α) (limit : ℕ) : HoldsLittle parse limit where
  file handle contents h hgrows := by
    obtain ⟨_, _, hheld⟩ := @readFileLoop_spec limit 0 0 [] handle contents h hgrows rfl
      (Nat.zero_le _) (Nat.zero_le _)
    exact hheld
  object body := ⟨fun _ hn => readS3Loop_held (Nat.zero_le _) hn, readS3Loop_joined (Nat.zero_le _)⟩
  response response := by
    cases hdeclared : response.declaresMore limit with
    | true =>
      unfold readJsonWithLimit
      rw [hdeclared]
      exact ⟨fun _ hn => absurd hn List.not_mem_nil, Nat.zero_le _⟩
    | false =>
      cases hbody : response.body with
      | none =>
        unfold readJsonWithLimit
        rw [hdeclared, hbody]
        exact ⟨fun _ hn => absurd hn List.not_mem_nil, Nat.zero_le _⟩
      | some chunks =>
        rw [readJsonWithLimit_body hbody hdeclared]
        exact ⟨fun n hn => ⟨chunks, rfl, readJsonLoop_held (Nat.zero_le _) hn⟩,
          readJsonLoop_joined (Nat.zero_le _)⟩

/-- **Bounded reads.**  Every content is read exactly, or refused for its length by all three
    readers; a file that grows is read as it was at some read; little is held. -/
theorem bounded_reads (parse : Bytes → Option α) (limit : ℕ) :
    (∀ content, ReadsExactly parse limit content) ∧
      (∀ (handle : BoundedReadHandle) (contents : ℕ → Bytes), handle.IsFileOf contents →
        Grows contents → ∃ last, (readFileHandleBounded handle limit).result =
          exactly limit objectTooLarge (contents last)) ∧
      HoldsLittle parse limit := by
  refine ⟨readsExactly parse limit, fun handle contents h hgrows => ?_, holdsLittle parse limit⟩
  obtain ⟨last, hresult, _⟩ := @readFileLoop_spec limit 0 0 [] handle contents h hgrows rfl
    (Nat.zero_le _) (Nat.zero_le _)
  exact ⟨last, hresult⟩

/-- A handle that gives one byte at a time. -/
def byteByByte (content : Bytes) : BoundedReadHandle where
  read _ length position := (content.drop position).take (min 1 length)
  length_read_le _ length position := by
    rw [List.length_take]
    omega

theorem byteByByte_isFileOf (content : Bytes) :
    (byteByByte content).IsFileOf fun _ => content :=
  fun _ length _ => ⟨min 1 length, rfl, fun hlength _ => by omega⟩

theorem three_bytes_read :
    (readFileHandleBounded (byteByByte [1, 2, 3]) 3).result = .ok [1, 2, 3] ∧
      (readFileHandleBounded (byteByByte [1, 2, 3]) 2).result = .error objectTooLarge :=
  ⟨((bounded_reads (fun _ => some 0) 3).1 [1, 2, 3]).file _ (byteByByte_isFileOf _),
    ((bounded_reads (fun _ => some 0) 2).1 [1, 2, 3]).file _ (byteByByte_isFileOf _)⟩

/-- A response with this body and no `content-length`. -/
def plainResponse (body : Option (List Bytes)) : Response := ⟨200, none, some 0, body⟩

/-- A response without a body has a content of no bytes, and is refused; three bytes in three chunks
    are held twice over at the end. -/
theorem bodiless_response_refused :
    (∀ parse : Bytes → Option ℕ,
      (readJsonWithLimit parse (plainResponse none) 10).result ≠
        .error (plainResponse none).tooLarge ∧
      ∀ value, (readJsonWithLimit parse (plainResponse none) 10).result ≠ .ok value) ∧
    (readS3Body [.chunk [1], .chunk [2], .chunk [3]] 3).joined > 3 + 1 + 1 := by
  refine ⟨fun parse => ⟨?_, ?_⟩, by decide⟩
  · intro h
    have : (plainResponse none).empty = (plainResponse none).tooLarge := Except.error.inj h
    exact absurd this (by decide)
  · intro value h
    cases h

end ResearchWorkbench.BoundedReads
