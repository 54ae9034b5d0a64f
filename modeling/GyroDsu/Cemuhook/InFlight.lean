import GyroDsu.Cemuhook.Checksum
import GyroDsu.Cemuhook.ServerAnswers

/-
Datagrams on their way: what a client that checks what it receives can no longer mistake for an
answer of the server.
-/
namespace InFlight
open LittleEndian Protocol ServerAnswers Checksum

def covered (bytes : List UInt8) : List UInt8 := bytes.take 8 ++ [0, 0, 0, 0] ++ bytes.drop 12

theorem messageBits_append (s t : List UInt8) : messageBits (s ++ t) = messageBits s ++ messageBits t := by
  simp only [messageBits, List.flatMap_append]

theorem middle_replaced {A : Type} (front back : List A) {middle other : List A}
    (length : other.length = middle.length) (i : Nat) :
    (front ++ (other ++ back))[i]? =
      if front.length ≤ i ∧ i < front.length + middle.length then other[i - front.length]?
      else (front ++ (middle ++ back))[i]? := by
  simp only [List.getElem?_append, length]
  split_ifs <;> first | rfl | omega

theorem packet_bits {bytes : List UInt8} (long : 12 ≤ bytes.length) :
    messageBits bytes =
        messageBits (bytes.take 8) ++ (messageBits ((bytes.drop 8).take 4) ++ messageBits (bytes.drop 12)) ∧
      (messageBits (bytes.take 8)).length = 64 ∧ (messageBits ((bytes.drop 8).take 4)).length = 32 := by
  refine ⟨?_, ?_, ?_⟩
  · have whole : bytes.take 8 ++ ((bytes.drop 8).take 4 ++ bytes.drop 12) = bytes := by
      rw [← List.drop_drop (i := 4) (j := 8), List.take_append_drop, List.take_append_drop]
    rw [← messageBits_append, ← messageBits_append, whole]
  · rw [messageBits_length, List.length_take]
    omega
  · rw [messageBits_length, List.length_take, List.length_drop]
    omega

theorem covered_bits {bytes : List UInt8} (long : 12 ≤ bytes.length) (i : Nat) :
    (messageBits (covered bytes))[i]? = if 64 ≤ i ∧ i < 96 then some false else (messageBits bytes)[i]? := by
  obtain ⟨bits, front, field⟩ := packet_bits long
  have zeros : messageBits [0, 0, 0, 0] = List.replicate 32 false := by decide
  have length : (List.replicate 32 false).length = (messageBits ((bytes.drop 8).take 4)).length := by
    rw [List.length_replicate, field]
  rw [covered, messageBits_append, messageBits_append, zeros, bits, List.append_assoc,
    middle_replaced _ _ length i, front, field]
  split
  · next inside => rw [List.getElem?_replicate, if_pos (by omega)]
  · rfl

theorem field_bit {bytes : List UInt8} (long : 12 ≤ bytes.length) {i : Nat} (inside : i < 32) :
    (messageBits bytes)[64 + i]? = (messageBits ((bytes.drop 8).take 4))[i]? := by
  obtain ⟨bits, front, field⟩ := packet_bits long
  rw [bits, ← front, List.getElem?_append_right (Nat.le_add_right _ _), Nat.add_sub_cancel_left,
    List.getElem?_append_left (by omega)]

theorem field_determined {r d : List UInt8} (long : 12 ≤ r.length) (long' : 12 ≤ d.length)
    (agree : ∀ i, 64 ≤ i → i < 96 → (messageBits r)[i]? = (messageBits d)[i]?) :
    load (memory r) 8 4 = load (memory d) 8 4 := by
  obtain ⟨_, _, field⟩ := packet_bits long
  obtain ⟨_, _, field'⟩ := packet_bits long'
  have same : (r.drop 8).take 4 = (d.drop 8).take 4 := by
    apply messageBits_injective
    apply List.ext_getElem?
    intro i
    by_cases inside : i < 32
    · rw [← field_bit long inside, ← field_bit long' inside]
      exact agree (64 + i) (by omega) (by omega)
    · rw [List.getElem?_eq_none (by omega), List.getElem?_eq_none (by omega)]
  rw [load_memory_at _ _ _ (by omega), load_memory_at _ _ _ (by omega), same]

/-- Two byte strings of one length that differ only in a burst, in the order of the check. -/
structure Altered (r d : List UInt8) (start width : Nat) : Prop where
  length : r.length = d.length
  other : r ≠ d
  agree : ∀ i, i < start ∨ start + width ≤ i → (messageBits r)[i]? = (messageBits d)[i]?

theorem altered_detected {r d : List UInt8} {start width : Nat} (altered : Altered r d start width)
    (short : width ≤ 32) : checksum r ≠ checksum d := by
  have bits_length : (messageBits r).length = (messageBits d).length := by
    rw [messageBits_length, messageBits_length, altered.length]
  obtain ⟨r_split, d_split⟩ := window_split altered.agree
  have burst_length : (((messageBits r).drop start).take width).length =
      (((messageBits d).drop start).take width).length := by
    simp only [List.length_take, List.length_drop, bits_length]
  have burst_other : ((messageBits r).drop start).take width ≠ ((messageBits d).drop start).take width := by
    intro equal
    rw [equal, ← d_split] at r_split
    exact altered.other (messageBits_injective r_split)
  have detected := Crc.burst_detected 0xedb88320#32 (by decide) (by decide) (BitVec.allOnes 32)
    ((messageBits r).take start) ((messageBits r).drop (start + width)) burst_length
    ((List.length_take_le _ _).trans short) burst_other
  rw [← r_split, ← d_split] at detected
  intro same
  exact detected (BitVec.not_inj.mp same)

theorem beside_crc {r d : List UInt8} {start width : Nat} (altered : Altered r d start width)
    (long : 12 ≤ d.length) (beside : start + width ≤ 64 ∨ 96 ≤ start) :
    Altered (covered r) (covered d) start width ∧ load (memory r) 8 4 = load (memory d) 8 4 := by
  have long' : 12 ≤ r.length := by rw [altered.length]; exact long
  refine ⟨⟨?_, ?_, ?_⟩, field_determined long' long fun i above below => altered.agree i (by omega)⟩
  · simp only [covered, List.length_append, List.length_take, List.length_drop, altered.length]
  · intro same
    apply altered.other
    apply messageBits_injective
    apply List.ext_getElem?
    intro i
    by_cases inside : 64 ≤ i ∧ i < 96
    · exact altered.agree i (by omega)
    · have here := congrArg (fun bytes => (messageBits bytes)[i]?) same
      simpa only [covered_bits long', covered_bits long, if_neg inside] using here
  · intro i outside
    rw [covered_bits long', covered_bits long, altered.agree i outside]

theorem inside_crc {r d : List UInt8} {start width : Nat} (altered : Altered r d start width)
    (long : 12 ≤ d.length) (inside : 64 ≤ start ∧ start + width ≤ 96) :
    covered r = covered d ∧ load (memory r) 8 4 ≠ load (memory d) 8 4 := by
  have long' : 12 ≤ r.length := by rw [altered.length]; exact long
  constructor
  · apply messageBits_injective
    apply List.ext_getElem?
    intro i
    rw [covered_bits long', covered_bits long]
    split
    · rfl
    · exact altered.agree i (by omega)
  · intro same
    rw [load_memory_at _ _ _ (by omega), load_memory_at _ _ _ (by omega)] at same
    have field := decode_injective (by simp only [List.length_take, List.length_drop, altered.length]) same
    apply altered.other
    apply messageBits_injective
    apply List.ext_getElem?
    intro i
    by_cases there : 64 ≤ i ∧ i < 96
    · obtain ⟨j, rfl⟩ := Nat.exists_eq_add_of_le there.1
      rw [field_bit long' (by omega), field_bit long (by omega), field]
    · exact altered.agree i (by omega)

/-- What comes of a well-formed packet by a burst of up to 32 bits beside or in crc32 is not well
    formed, whatever type and id it is taken for. -/
theorem altered_not_wellFormed {eventType id eventType' id' : UInt32} {r d : List UInt8} {start width : Nat}
    (formed : WellFormed eventType id d) (altered : Altered r d start width) (short : width ≤ 32)
    (place : start + width ≤ 64 ∨ (64 ≤ start ∧ start + width ≤ 96) ∨ 96 ≤ start) :
    ¬WellFormed eventType' id' r := by
  have long : 12 ≤ d.length := by
    rw [← formed.length]
    omega
  intro formed'
  have crc := formed.crc
  have crc' := formed'.crc
  by_cases inside : 64 ≤ start ∧ start + width ≤ 96
  · obtain ⟨same, differs⟩ := inside_crc altered long inside
    rw [covered, covered] at same
    rw [same, ← crc] at crc'
    exact differs crc'
  · obtain ⟨burst, same⟩ := beside_crc altered long (by omega)
    apply altered_detected burst short
    apply BitVec.eq_of_toNat_eq
    exact (crc'.symm.trans same).trans crc

theorem set_altered {d : List UInt8} {k : Nat} {b : UInt8} (inside : k < d.length) (other : d[k] ≠ b) :
    Altered (d.set k b) d (8 * k) 8 := by
  have whole : d = d.take k ++ ([d[k]] ++ d.drop (k + 1)) := by
    rw [List.singleton_append, List.getElem_cons_drop, List.take_append_drop]
  have changed : d.set k b = d.take k ++ ([b] ++ d.drop (k + 1)) := by
    rw [List.set_eq_take_append_cons_drop, if_pos inside, List.singleton_append]
  refine ⟨List.length_set, ?_, ?_⟩
  · intro same
    have here := congrArg (fun bytes => bytes[k]?) same
    simp only [List.getElem?_set_self inside, List.getElem?_eq_getElem inside, Option.some.injEq] at here
    exact other here.symm
  · intro i outside
    have eight : ∀ c : UInt8, (messageBits [c]).length = 8 := fun c => messageBits_length [c]
    have front : (messageBits (d.take k)).length = 8 * k := by
      rw [messageBits_length, List.length_take]
      omega
    have bits := congrArg messageBits whole
    rw [messageBits_append, messageBits_append] at bits
    rw [changed, messageBits_append, messageBits_append, bits,
      middle_replaced _ _ ((eight b).trans (eight d[k]).symm) i, front, eight, if_neg (by omega)]

theorem run_wellFormed {memory : Answers} {outHeader : Header} {sresponse : SharedResponse}
    {requests : List Request} {t : Serving}
    (run : Runs.Run Serving.step ⟨prepareAnswerConstants memory outHeader sresponse, []⟩ requests t) :
    ∀ d ∈ t.sent, d.eventType ≠ versionType → WellFormed d.eventType d.id d.bytes := by
  have all : Sound t.answers ∧ ∀ d ∈ t.sent, d.eventType ≠ versionType → WellFormed d.eventType d.id d.bytes := by
    refine Runs.run_invariant (fun s : Serving => Sound s.answers ∧
      ∀ d ∈ s.sent, d.eventType ≠ versionType → WellFormed d.eventType d.id d.bytes) ?_ run ?_
    · intro s request u h step
      obtain rfl := Option.some.inj step
      obtain ⟨sound, sent⟩ := serve_sound h.1 request
      refine ⟨sound, ?_⟩
      intro d member kind
      rcases List.mem_append.mp member with now | before
      · exact (sent d now).mpr kind
      · exact h.2 d before kind
    · exact ⟨constants_sound memory outHeader sresponse, fun d none_sent => by cases none_sent⟩
  exact all.2

/-- Whatever the server has answered and in whatever order: no burst of up to 32 bits turns one of its
    INFO or DATA packets into another that a client would take, if it lies beside crc32 or in it. -/
theorem altered_packets_rejected {memory : Answers} {outHeader : Header} {sresponse : SharedResponse}
    {requests : List Request} {t : Serving}
    (run : Runs.Run Serving.step ⟨prepareAnswerConstants memory outHeader sresponse, []⟩ requests t)
    {d : Sent} (sent : d ∈ t.sent) (kind : d.eventType ≠ versionType) {r : List UInt8} {start width : Nat}
    (altered : Altered r d.bytes start width) (short : width ≤ 32)
    (place : start + width ≤ 64 ∨ (64 ≤ start ∧ start + width ≤ 96) ∨ 96 ≤ start) (eventType id : UInt32) :
    ¬WellFormed eventType id r :=
  altered_not_wellFormed (run_wellFormed run d sent kind) altered short place

/-- An answer about slot 0 that says slot 1 when it arrives. -/
theorem altered_packets_rejected_slot :
    ∃ t : Serving, Runs.Run Serving.step fresh [.info 5 0] t ∧
      ∃ d ∈ t.sent, d.bytes[20]? = some 0 ∧ ¬WellFormed infoType 5 (d.bytes.set 20 1) := by
  have run : Runs.Run Serving.step fresh [.info 5 0] _ := Runs.Run.next Runs.Run.nil rfl
  have slot : (fresh.answers.prepareInfoAnswer 5 0).2[20]? = some 0 := rfl
  refine ⟨_, run, _, List.mem_cons_self, slot, ?_⟩
  obtain ⟨inside, at_slot⟩ := List.getElem?_eq_some_iff.mp slot
  have altered := set_altered (b := 1) inside (by rw [at_slot]; decide)
  exact altered_packets_rejected run List.mem_cons_self info_not_version altered (by decide) (by decide) infoType 5

end InFlight
