import PageScript.Proofs.Wire

/-!
# Reading what was cut off

An encoding that was cut off anywhere must not be taken for another one. A reader starves on an
encoding if on every proper beginning of it, the empty one included, it reports an unexpected end.
Together with reading the encoding back this composes: a cut falls into one of the parts, and all
parts in front of it are read as if nothing was missing.
-/

namespace PageScript.Wire

open Outcome (bind_of_ok bind_of_error)

variable {ε α β : Type}

/-- Whatever is missing at the end of `bytes`, `reader` fails with `ended`, at a place that is not
behind the last byte there is. -/
def Starves (ended : Nat → ε) (reader : ReaderOf ε α) (bytes : Bytes) : Prop :=
  ∀ (start missing : Bytes) (offset : Nat), start ++ missing = bytes → missing ≠ [] →
    ∃ place cursor, place ≤ offset + start.length ∧
      reader ⟨start, offset⟩ = .error (ended place) cursor

/-- `reader` takes `bytes` for `value` and is not content with less. -/
structure Takes (ended : Nat → ε) (reader : ReaderOf ε α) (bytes : Bytes) (value : α) : Prop where
  reads : Reads reader bytes value
  starves : Starves ended reader bytes

variable {ended : Nat → ε} {reader : ReaderOf ε α} {next : α → ReaderOf ε β} {bytes more : Bytes}
  {value : α} {result : β}

/-! ## Composition -/

theorem starves_nil (reader : ReaderOf ε α) : Starves ended reader [] := by
  intro start missing offset h hmissing
  exact absurd (List.append_eq_nil_iff.mp h).2 hmissing

/-- A cut lies within the first part, or else in what follows. -/
theorem Starves.bind (hstarves : Starves ended reader bytes) (hreads : Reads reader bytes value)
    (hnext : Starves ended (next value) more) :
    Starves ended (reader >>= next) (bytes ++ more) := by
  intro start missing offset h hmissing
  have hstart : start <+: bytes ++ more := ⟨missing, h⟩
  by_cases hshort : start.length < bytes.length
  · obtain ⟨lost, hlost⟩ := List.prefix_of_prefix_length_le hstart (List.prefix_append bytes more)
      (Nat.le_of_lt hshort)
    have hne : lost ≠ [] := by
      intro hnil
      rw [hnil, List.append_nil] at hlost
      exact Nat.ne_of_lt hshort (congrArg List.length hlost)
    obtain ⟨place, cursor, hplace, hfail⟩ := hstarves start lost offset hlost hne
    exact ⟨place, cursor, hplace, bind_of_error hfail⟩
  · obtain ⟨middle, hmiddle⟩ := List.prefix_of_prefix_length_le (List.prefix_append bytes more)
      hstart (Nat.le_of_not_lt hshort)
    rw [← hmiddle, List.append_assoc] at h
    obtain ⟨place, cursor, hplace, hfail⟩ := hnext middle missing (offset + bytes.length)
      (List.append_cancel_left h) hmissing
    refine ⟨place, cursor, ?_, ?_⟩
    · rw [← hmiddle, List.length_append, ← Nat.add_assoc]
      exact hplace
    · rw [← hmiddle, bind_of_ok (hreads middle offset)]
      exact hfail

theorem takes_of_reads_nil (hreads : Reads reader [] value) : Takes ended reader [] value :=
  ⟨hreads, starves_nil reader⟩

theorem Takes.bind (hreader : Takes ended reader bytes value)
    (hnext : Takes ended (next value) more result) :
    Takes ended (reader >>= next) (bytes ++ more) result :=
  ⟨hreader.reads.bind hnext.reads, hreader.starves.bind hreader.reads hnext.starves⟩

/-- The last step of a reader that only builds its value. -/
theorem Takes.bind_pure (hreader : Takes ended reader bytes value) (build : α → β) :
    Takes ended (reader >>= fun value ↦ pure (build value)) bytes (build value) := by
  have h : Takes ended (reader >>= fun value ↦ pure (build value)) (bytes ++ []) (build value) :=
    hreader.bind (takes_of_reads_nil (reads_pure (build value)))
  rwa [List.append_nil] at h

theorem Takes.lift {reader : Reader α} {ended : Nat → Error} (error : Error → ε)
    (hreader : Takes ended reader bytes value) :
    Takes (fun place ↦ error (ended place)) (reader.lift error) bytes value := by
  refine ⟨hreader.reads.lift error, fun start missing offset h hmissing ↦ ?_⟩
  obtain ⟨place, cursor, hplace, hfail⟩ := hreader.starves start missing offset h hmissing
  refine ⟨place, cursor, hplace, ?_⟩
  rw [Reader.lift, hfail]

/-- Running a reader on an encoding that was cut off. -/
theorem Starves.run (hstarves : Starves ended reader bytes) {start : Bytes}
    (hstart : start <+: bytes) (hne : start ≠ bytes) :
    ∃ place ≤ start.length, Reader.run reader start = .error (ended place) := by
  obtain ⟨missing, h⟩ := hstart
  have hmissing : missing ≠ [] := by
    intro hnil
    rw [hnil, List.append_nil] at h
    exact hne h
  obtain ⟨place, cursor, hplace, hfail⟩ := hstarves start missing 0 h hmissing
  rw [Nat.zero_add] at hplace
  refine ⟨place, hplace, ?_⟩
  rw [Reader.run, Cursor.ofBytes, hfail]

/-! ## Primitives -/

/-- A part of fixed length is read whole or not at all. -/
theorem takes_of_length (hreads : Reads reader bytes value)
    (hshort : ∀ cursor : Cursor, cursor.rest.length < bytes.length →
      reader cursor = .error (ended cursor.offset) cursor) : Takes ended reader bytes value := by
  refine ⟨hreads, fun start missing offset h hmissing ↦ ?_⟩
  have hlength : start.length < bytes.length := by
    rw [← h, List.length_append]
    exact Nat.lt_add_of_pos_right (List.length_pos_iff.mpr hmissing)
  exact ⟨offset, ⟨start, offset⟩, Nat.le_add_right _ _, hshort ⟨start, offset⟩ hlength⟩

theorem takes_u8 (n : UInt8) : Takes Error.unexpectedEnd Reader.u8 [n] n :=
  takes_of_length (reads_u8 n) takesSize_u8.missing

theorem takes_u16 (n : UInt16) : Takes Error.unexpectedEnd Reader.u16 (bytesOf16 n) n :=
  takes_of_length (reads_u16 n) takesSize_u16.missing

theorem takes_u32 (n : UInt32) : Takes Error.unexpectedEnd Reader.u32 (bytesOf32 n) n :=
  takes_of_length (reads_u32 n) takesSize_u32.missing

theorem takes_block (bytes : Bytes) :
    Takes Error.unexpectedEnd (Reader.block bytes.length) bytes bytes :=
  takes_of_length (reads_block bytes) (takesSize_block bytes.length).missing

/-- A text whose length is cut off ends in it, and so does one whose body is: in neither case are
the bytes that are there looked at as a text. -/
theorem takes_text {value : String} (hsize : (Text.Utf8.encode value).length < UInt32.size) :
    Takes Error.unexpectedEnd Reader.text (text value) value := by
  have hlength := toNat_ofNat_of_lt hsize
  have hbody (offset : Nat) := ((takes_block (Text.Utf8.encode value)).bind
    (takes_of_reads_nil (reads_decode offset value))).starves
  rw [List.append_nil] at hbody
  refine ⟨reads_text hsize, (takes_u32 _).starves.bind (reads_u32 _) ?_⟩
  intro start missing offset
  rw [hlength]
  exact hbody offset start missing offset

/-! ## Lists -/

theorem takes_times {item : ReaderOf ε α} {encode : α → Bytes} (items : List α)
    (hitem : ∀ value ∈ items, Takes ended item (encode value) value) :
    Takes ended (Reader.times item items.length) (items.flatMap encode) items := by
  induction items with
  | nil => exact takes_of_reads_nil (reads_pure [])
  | cons value rest ih =>
    have hrest := ih fun other hother ↦ hitem other (List.mem_cons_of_mem _ hother)
    exact (hitem value List.mem_cons_self).bind (hrest.bind_pure (value :: ·))

theorem takes_list {item : Reader α} {encode : α → Bytes} {items : List α}
    (hcount : items.length < UInt32.size)
    (hitem : ∀ value ∈ items, Takes Error.unexpectedEnd item (encode value) value) :
    Takes Error.unexpectedEnd (Reader.list item) (list encode items) items := by
  refine (takes_u32 _).bind ?_
  rw [toNat_ofNat_of_lt hcount]
  exact takes_times items hitem

end PageScript.Wire
