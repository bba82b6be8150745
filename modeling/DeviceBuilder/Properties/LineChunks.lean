import DeviceBuilder.Helpers.Subprocess

/-!
# Chunks of output lines

What `iter_lines_with_progress` yields depends on the bytes of the stream, not on
the reads that delivered them.

* `chunkEnd_append`: a chunk that was found stays where it is when more bytes come;
  so `drain_append`: draining twice is draining once.
* `Terminated`: a chunk with its one terminator.
* `chunks_independent`: the result.
-/

namespace DeviceBuilder

variable {buf more : Bytes} {e : ℕ} {c : Bytes} {reads : List Bytes}

theorem chunkEnd_append (h : chunkEnd buf = some e) : chunkEnd (buf ++ more) = some e := by
  induction buf generalizing e with
  | nil => cases h
  | cons b rest ih =>
    by_cases hn : b = lf
    · subst hn
      rw [chunkEnd_lf] at h
      rw [List.cons_append, chunkEnd_lf, h]
    by_cases hc : b = cr
    · subst hc
      cases rest with
      | nil => cases h
      | cons x rest =>
        rw [chunkEnd_cr] at h
        rw [List.cons_append, List.cons_append, chunkEnd_cr, h]
    · rw [chunkEnd_plain hc hn, Option.map_eq_some_iff] at h
      obtain ⟨e', h', rfl⟩ := h
      rw [List.cons_append, chunkEnd_plain hc hn, ih h']
      rfl

theorem drain_none (h : chunkEnd buf = none) : drain buf = ([], buf) := by
  rw [drain]
  split
  · rfl
  · next h' =>
    rw [h] at h'
    cases h'

theorem drain_some (h : chunkEnd buf = some e) :
    drain buf = (buf.take e :: (drain (buf.drop e)).1, (drain (buf.drop e)).2) := by
  rw [drain]
  split
  · next h' =>
    rw [h] at h'
    cases h'
  · next h' =>
    rw [h] at h'
    cases h'
    rfl

/-- Nothing more can be cut off what stays. -/
theorem chunkEnd_drain (buf : Bytes) : chunkEnd (drain buf).2 = none := by
  induction buf using drain.induct with
  | case1 buf h => rw [drain_none h, h]
  | case2 buf e h ih => rw [drain_some h, ih]

theorem flatten_drain (buf : Bytes) : (drain buf).1.flatten ++ (drain buf).2 = buf := by
  induction buf using drain.induct with
  | case1 buf h => rw [drain_none h]; rfl
  | case2 buf e h ih =>
    rw [drain_some h, List.flatten_cons, List.append_assoc, ih, List.take_append_drop]

/-- **Draining twice is draining once.** -/
theorem drain_append (buf more : Bytes) :
    drain (buf ++ more) =
      ((drain buf).1 ++ (drain ((drain buf).2 ++ more)).1, (drain ((drain buf).2 ++ more)).2) := by
  induction buf using drain.induct with
  | case1 buf h => rw [drain_none h, List.nil_append]
  | case2 buf e h ih =>
    have hle := (chunkEnd_pos h).2
    rw [drain_some (chunkEnd_append h), drain_some h, List.take_append_of_le_length hle,
      List.drop_append_of_le_length hle, ih]
    rfl

/-- The chunks of a string that is read at once. -/
def chunksOf (data : Bytes) : List Bytes :=
  (drain data).1 ++ if (drain data).2 = [] then [] else [(drain data).2]

theorem readChunks_eq (hbuf : chunkEnd buf = none) (h : ∀ r ∈ reads, r ≠ []) :
    readChunks buf reads = chunksOf (buf ++ reads.flatten) := by
  induction reads generalizing buf with
  | nil =>
    rw [List.flatten_nil, List.append_nil, chunksOf, drain_none hbuf]
    rfl
  | cons data reads ih =>
    rw [readChunks, if_neg (h data List.mem_cons_self),
      ih (chunkEnd_drain _) fun r hr => h r (List.mem_cons_of_mem _ hr), List.flatten_cons,
      ← List.append_assoc, chunksOf, chunksOf, drain_append (buf ++ data), List.append_assoc]

/-! ### Terminators -/

/-- A chunk that ends in its one terminator. -/
def Terminated (c : Bytes) : Prop :=
  ∃ body, (∀ b ∈ body, b ≠ cr ∧ b ≠ lf) ∧
    (c = body ++ [lf] ∨ c = body ++ [cr] ∨ c = body ++ [cr, lf])

theorem Terminated.cons {b : UInt8} (hc : b ≠ cr) (hn : b ≠ lf) (h : Terminated c) :
    Terminated (b :: c) := by
  obtain ⟨body, hbody, hend⟩ := h
  refine ⟨b :: body, fun x hx => ?_, ?_⟩
  · rcases List.mem_cons.1 hx with rfl | hx
    · exact ⟨hc, hn⟩
    · exact hbody x hx
  · rcases hend with rfl | rfl | rfl
    · exact Or.inl rfl
    · exact Or.inr (Or.inl rfl)
    · exact Or.inr (Or.inr rfl)

/-- A chunk is cut behind its terminator, and a CRLF never in the middle. -/
theorem terminated_of_chunkEnd (h : chunkEnd buf = some e) :
    Terminated (buf.take e) ∧
      ((buf.take e).getLast? = some cr → ∀ x, (buf.drop e).head? = some x → x ≠ lf) := by
  have hlf : lf ≠ cr := by decide
  induction buf generalizing e with
  | nil => cases h
  | cons b rest ih =>
    by_cases hn : b = lf
    · subst hn
      rw [chunkEnd_lf] at h
      cases h
      exact ⟨⟨[], nofun, Or.inl rfl⟩, fun hl => absurd (Option.some.inj hl) hlf⟩
    by_cases hc : b = cr
    · subst hc
      cases rest with
      | nil => cases h
      | cons x rest =>
        rw [chunkEnd_cr, Option.some.injEq] at h
        split at h
        · next hx =>
          subst hx h
          exact ⟨⟨[], nofun, Or.inr (Or.inr rfl)⟩, fun hl => absurd (Option.some.inj hl) hlf⟩
        · next hx =>
          subst h
          refine ⟨⟨[], nofun, Or.inr (Or.inl rfl)⟩, fun _ y hy => ?_⟩
          cases hy
          exact hx
    · rw [chunkEnd_plain hc hn, Option.map_eq_some_iff] at h
      obtain ⟨e', h', rfl⟩ := h
      obtain ⟨ht, hseam⟩ := ih h'
      rw [List.take_succ_cons, List.drop_succ_cons]
      refine ⟨ht.cons hc hn, fun hl => hseam ?_⟩
      obtain ⟨body, -, hend⟩ := ht
      have hne : rest.take e' ≠ [] := by
        rcases hend with hend | hend | hend <;> rw [hend] <;> simp
      obtain ⟨y, ys, hys⟩ := List.exists_cons_of_ne_nil hne
      rw [hys] at hl ⊢
      rwa [List.getLast?_cons_cons] at hl

/-- What stays holds no terminator, but for a CR at its end. -/
theorem plain_of_chunkEnd_none (h : chunkEnd buf = none) :
    (∀ b ∈ buf, b ≠ cr ∧ b ≠ lf) ∨ Terminated buf := by
  induction buf with
  | nil => exact Or.inl nofun
  | cons b rest ih =>
    by_cases hn : b = lf
    · subst hn
      rw [chunkEnd_lf] at h
      cases h
    by_cases hc : b = cr
    · subst hc
      cases rest with
      | nil => exact Or.inr ⟨[], nofun, Or.inr (Or.inl rfl)⟩
      | cons x rest =>
        rw [chunkEnd_cr] at h
        cases h
    · rw [chunkEnd_plain hc hn, Option.map_eq_none_iff] at h
      rcases ih h with h | h
      · refine Or.inl fun x hx => ?_
        rcases List.mem_cons.1 hx with rfl | hx
        · exact ⟨hc, hn⟩
        · exact h x hx
      · exact Or.inr (h.cons hc hn)

/-! ### The chunks -/

theorem chunksOf_none (h : chunkEnd buf = none) :
    chunksOf buf = if buf = [] then [] else [buf] := by
  rw [chunksOf, drain_none h]
  rfl

theorem chunksOf_some (h : chunkEnd buf = some e) :
    chunksOf buf = buf.take e :: chunksOf (buf.drop e) := by
  rw [chunksOf, drain_some h]
  rfl

theorem flatten_chunksOf (buf : Bytes) : (chunksOf buf).flatten = buf := by
  have hflat : (if (drain buf).2 = [] then [] else [(drain buf).2]).flatten = (drain buf).2 := by
    split
    · next h => rw [h]; rfl
    · exact List.append_nil _
  rw [chunksOf, List.flatten_append, hflat, flatten_drain]

theorem ne_nil_of_mem_chunksOf (hc : c ∈ chunksOf buf) : c ≠ [] := by
  induction buf using drain.induct with
  | case1 buf h =>
    rw [chunksOf_none h] at hc
    split at hc
    · cases hc
    · next hne => rwa [List.mem_singleton.1 hc]
  | case2 buf e h ih =>
    rw [chunksOf_some h] at hc
    rcases List.mem_cons.1 hc with rfl | hc
    · obtain ⟨hpos, hle⟩ := chunkEnd_pos h
      intro hnil
      have hlen := congrArg List.length hnil
      rw [List.length_take, List.length_nil] at hlen
      omega
    · exact ih hc

theorem seam_of_chunksOf {front back : List Bytes} {d : Bytes}
    (hc : chunksOf buf = front ++ c :: d :: back) :
    Terminated c ∧ ¬ (c.getLast? = some cr ∧ d.head? = some lf) := by
  induction buf using drain.induct generalizing front with
  | case1 buf h =>
    rw [chunksOf_none h] at hc
    have hlen := congrArg List.length hc
    rw [List.length_append, List.length_cons, List.length_cons] at hlen
    split at hlen
    · rw [List.length_nil] at hlen
      omega
    · rw [List.length_singleton] at hlen
      omega
  | case2 buf e h ih =>
    rw [chunksOf_some h] at hc
    cases front with
    | nil =>
      obtain ⟨rfl, hrest⟩ := List.cons.inj hc
      obtain ⟨ht, hseam⟩ := terminated_of_chunkEnd h
      refine ⟨ht, fun ⟨hl, hd⟩ => hseam hl lf ?_ rfl⟩
      have hmem : d ∈ chunksOf (buf.drop e) := hrest ▸ List.mem_cons_self
      obtain ⟨x, xs, rfl⟩ := List.exists_cons_of_ne_nil (ne_nil_of_mem_chunksOf hmem)
      rw [← flatten_chunksOf (buf.drop e), hrest]
      exact hd
    | cons f front => exact ih (List.cons.inj hc).2

theorem last_of_chunksOf {front : List Bytes} (hc : chunksOf buf = front ++ [c]) :
    (∀ b ∈ c, b ≠ cr ∧ b ≠ lf) ∨ Terminated c := by
  induction buf using drain.induct generalizing front with
  | case1 buf h =>
    rw [chunksOf_none h] at hc
    have hmem : c ∈ (if buf = [] then [] else [buf]) := hc ▸ List.mem_append_right _ (by simp)
    split at hmem
    · cases hmem
    · rw [List.mem_singleton.1 hmem]
      exact plain_of_chunkEnd_none h
  | case2 buf e h ih =>
    rw [chunksOf_some h] at hc
    cases front with
    | nil =>
      obtain ⟨rfl, -⟩ := List.cons.inj hc
      exact Or.inr (terminated_of_chunkEnd h).1
    | cons f front => exact ih (List.cons.inj hc).2

/-- **The chunks of a stream** are those of its bytes read at once. Together they are the bytes,
and each but the last is cut behind its one terminator. -/
theorem chunks_independent {τ : Type*} (decode : Bytes → τ) (reads : List Bytes)
    (h : ∀ r ∈ reads, r ≠ []) :
    iterLinesWithProgress decode reads =
        iterLinesWithProgress decode (if reads.flatten = [] then [] else [reads.flatten]) ∧
      ∃ chunks : List Bytes, iterLinesWithProgress decode reads = chunks.map decode ∧
        chunks.flatten = reads.flatten ∧ (∀ c ∈ chunks, c ≠ []) ∧
        (∀ front c d back, chunks = front ++ c :: d :: back → Terminated c ∧
          ¬ (c.getLast? = some cr ∧ d.head? = some lf)) ∧
        ∀ front c, chunks = front ++ [c] → (∀ b ∈ c, b ≠ cr ∧ b ≠ lf) ∨ Terminated c := by
  have hreads : readChunks [] reads = chunksOf reads.flatten := readChunks_eq chunkEnd_nil h
  have honce : readChunks [] (if reads.flatten = [] then [] else [reads.flatten]) =
      chunksOf reads.flatten := by
    have hne : ∀ r ∈ (if reads.flatten = [] then [] else [reads.flatten]), r ≠ [] := by
      intro r hr
      split at hr
      · cases hr
      · next hne => rwa [List.mem_singleton.1 hr]
    have hflat : (if reads.flatten = [] then [] else [reads.flatten]).flatten = reads.flatten := by
      split
      · next hnil => rw [hnil]; rfl
      · exact List.append_nil _
    rw [readChunks_eq chunkEnd_nil hne, List.nil_append, hflat]
  refine ⟨?_, chunksOf reads.flatten, ?_, flatten_chunksOf _, fun c => ne_nil_of_mem_chunksOf,
    fun front c d back => seam_of_chunksOf, fun front c => last_of_chunksOf⟩
  · rw [iterLinesWithProgress, iterLinesWithProgress, hreads, honce]
  · rw [iterLinesWithProgress, hreads]

/-- A CRLF that two reads share. -/
theorem chunks_independent_crlf :
    iterLinesWithProgress id [[97, cr], [lf, 98]] = iterLinesWithProgress id [[97, cr, lf, 98]] :=
  (chunks_independent id [[97, cr], [lf, 98]] (by decide)).1

end DeviceBuilder
