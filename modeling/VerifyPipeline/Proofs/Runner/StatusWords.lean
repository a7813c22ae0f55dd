import VerifyPipeline.Proofs.Runner.Commands

namespace VerifyPipeline

/-!
# What status words report

A status word reports that a child has exited with a code, that it was killed by a signal, or
neither of the two.  Which of them it is stands in its low seven bits, and the code in its second
byte.  The status of a word tells what the word reports, and it tells an interruption in the same
way whether the child was killed by the signal or has exited with 128 and the signal.
-/

/-- The word reports that the child has exited with a code. -/
structure ReportsExit (raw code : Int32) : Prop where
  unsignalled : raw &&& 0x7f = 0
  inSecondByte : (raw >>> 8) &&& 0xff = code

/-- The word reports that the child was killed by a signal. -/
structure ReportsSignal (raw signal : Int32) : Prop where
  inLowBits : raw &&& 0x7f = signal
  signalled : signal ≠ 0
  /-- A child that has only stopped was not killed. -/
  unstopped : signal ≠ 0x7f

/-- The signals by which a user ends a program. -/
def interruptSignals : List Int32 := [1, 2, 15]

theorem forall_mem_interruptSignals {p : Int32 → Prop} :
    (∀ signal ∈ interruptSignals, p signal) ↔ p 1 ∧ p 2 ∧ p 15 := by
  simp [interruptSignals]

/-- The word reports an interruption: the child was killed by the signal, or it is a shell that
tells so of another program. -/
def ReportsInterruption (raw signal : Int32) : Prop :=
  signal ∈ interruptSignals ∧ (ReportsSignal raw signal ∨ ReportsExit raw (128 + signal))

/-- The status tells what the word reports. -/
structure StepStatus.Reads (status : StepStatus) (raw : Int32) : Prop where
  passedIff : status = .passed ↔ raw = 0
  interruptedIff : ∀ signal, status = .interrupted signal ↔ ReportsInterruption raw signal
  /-- Any other word is a failure, with the code and the signal that it reports. -/
  failedIff :
    ∀ code? signal?,
      status = .failed code? signal? ↔
        raw ≠ 0 ∧
          (∀ signal, ¬ ReportsInterruption raw signal) ∧
          (∀ code, code? = some code ↔ ReportsExit raw code) ∧
          ∀ signal, signal? = some signal ↔ ReportsSignal raw signal
  settled :
    status = .passed ∨
      (∃ signal, status = .interrupted signal) ∨
        ∃ code? signal?, status = .failed code? signal?
  /-- No failure has both, or one of the codes and signals that tell an interruption. -/
  ofFailed :
    ∀ code? signal?,
      status = .failed code? signal? →
        (code? = none ∨ signal? = none) ∧
          ∀ signal ∈ interruptSignals, signal? ≠ some signal ∧ code? ≠ some (128 + signal)

/-! ## The fields of a word -/

/-- The seven lowest bits of a status word are its remainder by 128. -/
theorem toNat_and_signalMask (raw : Int32) :
    (raw &&& 0x7f).toUInt32.toNat = raw.toUInt32.toNat % 128 := by
  rw [Int32.toUInt32_and, UInt32.toNat_and]
  exact Nat.and_two_pow_sub_one_eq_mod _ 7

/-- The shift extends the sign, but not into the byte that is taken. -/
theorem toNat_shiftRight_and_codeMask (raw : Int32) :
    ((raw >>> 8) &&& 0xff).toUInt32.toNat = raw.toUInt32.toNat / 256 % 256 := by
  have shifted :
      (raw >>> 8).toUInt32.toNat % 2 ^ 8 = raw.toUInt32.toNat / 2 ^ 8 % 2 ^ 8 := by
    refine Nat.eq_of_testBit_eq fun place => ?_
    rw [Nat.testBit_mod_two_pow, Nat.testBit_mod_two_pow, Nat.testBit_div_two_pow]
    by_cases below : place < 8
    · have inside : 8 + place < 32 := by omega
      have notSign : ¬ 32 ≤ place := by omega
      have bit :
          (raw.toBitVec.sshiftRight 8).getLsbD place = raw.toBitVec.getLsbD (8 + place) := by
        simp [BitVec.getLsbD_sshiftRight, inside, notSign]
      rw [Nat.add_comm]
      exact congrArg (decide (place < 8) && ·) bit
    · simp [below]
  rw [Int32.toUInt32_and, UInt32.toNat_and]
  exact (Nat.and_two_pow_sub_one_eq_mod _ 8).trans shifted

/-- Words are equal if their unsigned numbers are. -/
theorem word_eq_iff {word other : Int32} :
    word = other ↔ word.toUInt32.toNat = other.toUInt32.toNat := by
  constructor
  · exact congrArg fun word : Int32 => word.toUInt32.toNat
  · intro same
    cases word
    cases other
    exact congrArg Int32.ofUInt32 (UInt32.toNat_inj.mp same)

@[simp]
theorem ofNat_toNat (word : Int32) : Int32.ofNat word.toUInt32.toNat = word := by
  rw [word_eq_iff, Int32.toUInt32_ofNat']
  exact UInt32.toNat_ofNat_of_lt' word.toUInt32.toNat_lt

/-- The numbers that the runner looks for are those of the three signals. -/
theorem isInterruptSignal_iff (signal : Int32) :
    isInterruptSignal signal.toUInt32.toNat = true ↔ signal ∈ interruptSignals := by
  simp only [isInterruptSignal, interruptSignals, List.mem_cons, List.not_mem_nil, or_false,
    word_eq_iff, Bool.or_eq_true, decide_eq_true_eq, or_assoc]
  rfl

namespace ReportsExit

variable {raw code other signal : Int32}

/-- A word reports one exit code at most. -/
theorem unique
    (reports : ReportsExit raw code)
    (also : ReportsExit raw other) :
    code = other :=
  reports.inSecondByte.symm.trans also.inSecondByte

/-- A word that reports an exit code reports no signal. -/
theorem not_reportsSignal
    (reports : ReportsExit raw code) :
    ¬ ReportsSignal raw signal :=
  fun killed => killed.signalled (killed.inLowBits.symm.trans reports.unsignalled)

/-- The runner reads the code from the word. -/
theorem ofRaw
    (reports : ReportsExit raw code) :
    ChildEnd.ofRaw raw = .exited code.toUInt32.toNat := by
  have low := congrArg (fun word : Int32 => word.toUInt32.toNat) reports.unsignalled
  have byte := congrArg (fun word : Int32 => word.toUInt32.toNat) reports.inSecondByte
  simp only [toNat_and_signalMask, toNat_shiftRight_and_codeMask] at low byte
  have clear : raw.toUInt32.toNat % 128 = 0 := low
  simp only [ChildEnd.ofRaw, clear, ↓reduceIte, byte]

end ReportsExit

namespace ReportsSignal

variable {raw signal other : Int32}

theorem unique
    (reports : ReportsSignal raw signal)
    (also : ReportsSignal raw other) :
    signal = other :=
  reports.inLowBits.symm.trans also.inLowBits

theorem ofRaw
    (reports : ReportsSignal raw signal) :
    ChildEnd.ofRaw raw = .killed signal.toUInt32.toNat := by
  have low := congrArg (fun word : Int32 => word.toUInt32.toNat) reports.inLowBits
  simp only [toNat_and_signalMask] at low
  have nonzero : signal.toUInt32.toNat ≠ 0 := fun zero =>
    reports.signalled (word_eq_iff.mpr zero)
  have proper : signal.toUInt32.toNat ≠ 127 := fun stopped =>
    reports.unstopped (word_eq_iff.mpr stopped)
  have below : signal.toUInt32.toNat < 127 := by omega
  simp only [ChildEnd.ofRaw, low, nonzero, below, ↓reduceIte]

end ReportsSignal

/-- A word reports an exit, or the end by a signal, or neither. -/
theorem reports_cases (raw : Int32) :
    (∃ code, ReportsExit raw code) ∨
      (∃ signal, ReportsSignal raw signal) ∨
        ChildEnd.ofRaw raw = .unknown ∧
          (∀ code, ¬ ReportsExit raw code) ∧
          ∀ signal, ¬ ReportsSignal raw signal := by
  by_cases unsignalled : raw &&& 0x7f = 0
  · exact .inl ⟨_, unsignalled, rfl⟩
  · by_cases stopped : raw &&& 0x7f = 0x7f
    · have low := congrArg (fun word : Int32 => word.toUInt32.toNat) stopped
      simp only [toNat_and_signalMask] at low
      have all : raw.toUInt32.toNat % 128 = 127 := low
      refine .inr (.inr ⟨by simp [ChildEnd.ofRaw, all], ?_, ?_⟩)
      · exact fun code reports => unsignalled reports.unsignalled
      · exact fun signal reports => reports.unstopped (reports.inLowBits.symm.trans stopped)
    · exact .inr (.inl ⟨_, rfl, unsignalled, stopped⟩)

/-- A word reports one interruption at most. -/
theorem ReportsInterruption.unique
    {raw signal other : Int32}
    (reports : ReportsInterruption raw signal)
    (also : ReportsInterruption raw other) :
    signal = other := by
  rcases reports.2, also.2 with ⟨killed | exited, killedToo | exitedToo⟩
  · exact killed.unique killedToo
  · exact absurd killed exitedToo.not_reportsSignal
  · exact absurd killedToo exited.not_reportsSignal
  · exact (Int32.add_right_inj 128).mp (exited.unique exitedToo)

/-- Success is no interruption. -/
theorem not_reportsInterruption_zero (signal : Int32) : ¬ ReportsInterruption 0 signal := by
  have exits : ReportsExit 0 0 := ⟨rfl, rfl⟩
  have nonzero : ∀ signal ∈ interruptSignals, 128 + signal ≠ 0 :=
    forall_mem_interruptSignals.mpr (by decide)
  rintro ⟨listed, killed | exited⟩
  · exact exits.not_reportsSignal killed
  · exact nonzero signal listed (exited.unique exits)

/-! ## Statuses of words -/

namespace StepStatus

variable {raw : Int32}

theorem reads_passed : passed.Reads 0 where
  passedIff := by simp
  interruptedIff := by simpa using not_reportsInterruption_zero
  failedIff := by simp
  settled := .inl rfl
  ofFailed := nofun

/-- The status of an interruption reads every word that reports one. -/
theorem reads_interrupted
    {signal : Int32}
    (reports : ReportsInterruption raw signal) :
    (interrupted signal).Reads raw := by
  have ended : raw ≠ 0 := by
    rintro rfl
    exact not_reportsInterruption_zero signal reports
  exact {
    passedIff := by simp [ended]
    interruptedIff := fun other => by
      rw [interrupted.injEq]
      constructor
      · rintro rfl
        exact reports
      · exact reports.unique
    failedIff := fun code? signal? => by
      constructor
      · nofun
      · exact fun fails => absurd reports (fails.2.1 signal)
    settled := .inr (.inl ⟨signal, rfl⟩)
    ofFailed := nofun
  }

/-- The status of a failure reads the words that report neither success nor an interruption. -/
theorem reads_failed
    {code? signal? : Option Int32}
    (ended : raw ≠ 0)
    (uninterrupted : ∀ signal, ¬ ReportsInterruption raw signal)
    (codeIff : ∀ code, code? = some code ↔ ReportsExit raw code)
    (signalIff : ∀ signal, signal? = some signal ↔ ReportsSignal raw signal) :
    (failed code? signal?).Reads raw where
  passedIff := by simp [ended]
  interruptedIff := by simpa using uninterrupted
  failedIff := by
    intro otherCode? otherSignal?
    rw [failed.injEq]
    constructor
    · rintro ⟨rfl, rfl⟩
      exact ⟨ended, uninterrupted, codeIff, signalIff⟩
    · rintro ⟨_, _, otherCodeIff, otherSignalIff⟩
      constructor
      · exact Option.ext fun code => (codeIff code).trans (otherCodeIff code).symm
      · exact Option.ext fun signal => (signalIff signal).trans (otherSignalIff signal).symm
  settled := .inr (.inr ⟨code?, signal?, rfl⟩)
  ofFailed := by
    rintro _ _ ⟨rfl, rfl⟩
    refine ⟨?_, fun signal listed => ⟨fun killed => ?_, fun exited => ?_⟩⟩
    · cases code? with
      | none =>
          exact .inl rfl
      | some code =>
          refine .inr (Option.eq_none_iff_forall_ne_some.mpr fun signal killed => ?_)
          exact ((codeIff code).mp rfl).not_reportsSignal ((signalIff signal).mp killed)
    · exact uninterrupted signal ⟨listed, .inl ((signalIff signal).mp killed)⟩
    · exact uninterrupted signal ⟨listed, .inr ((codeIff _).mp exited)⟩

end StepStatus

/-- An exit code tells of an interruption if it is 128 and one of the signals. -/
theorem tellsInterruption_iff (code : Int32) :
    (128 < code.toUInt32.toNat && isInterruptSignal (code.toUInt32.toNat - 128)) = true ↔
      ∃ signal ∈ interruptSignals, 128 + signal = code := by
  constructor
  · intro tells
    simp only [isInterruptSignal, Bool.and_eq_true, Bool.or_eq_true, decide_eq_true_eq] at tells
    obtain ⟨above, (hangUp | interrupt) | terminate⟩ := tells
    · exact ⟨1, by decide, word_eq_iff.mpr (by change 129 = _; omega)⟩
    · exact ⟨2, by decide, word_eq_iff.mpr (by change 130 = _; omega)⟩
    · exact ⟨15, by decide, word_eq_iff.mpr (by change 143 = _; omega)⟩
  · rintro ⟨signal, listed, rfl⟩
    revert signal
    exact forall_mem_interruptSignals.mpr (by decide)

section Classified

variable {raw code signal : Int32}

/-- An exit code is classified as the word says. -/
theorem reads_classify_of_reportsExit
    (ended : raw ≠ 0)
    (exited : ReportsExit raw code) :
    (classify raw).Reads raw := by
  have unkilled (signal : Int32) : ¬ ReportsSignal raw signal := exited.not_reportsSignal
  by_cases tells : ∃ signal ∈ interruptSignals, 128 + signal = code
  · obtain ⟨signal, listed, rfl⟩ := tells
    have number :
        ∀ signal ∈ interruptSignals,
          Int32.ofNat ((128 + signal).toUInt32.toNat - 128) = signal :=
      forall_mem_interruptSignals.mpr (by decide)
    have told := (tellsInterruption_iff (128 + signal)).mpr ⟨signal, listed, rfl⟩
    have status : classify raw = .interrupted signal := by
      simp only [classify, ended, exited.ofRaw, told, number signal listed, ↓reduceIte]
    rw [status]
    exact StepStatus.reads_interrupted ⟨listed, .inr exited⟩
  · have untold := mt (tellsInterruption_iff code).mp tells
    have status : classify raw = .failed (some code) none := by
      simp only [classify, ended, exited.ofRaw, untold, ↓reduceIte, ofNat_toNat]
      rfl
    rw [status]
    refine StepStatus.reads_failed ended ?_ (fun other => ?_) (by simpa using unkilled)
    · rintro signal ⟨listed, killed | passedOn⟩
      · exact unkilled signal killed
      · exact tells ⟨signal, listed, passedOn.unique exited⟩
    · rw [Option.some.injEq]
      exact ⟨fun same => same ▸ exited, exited.unique⟩

/-- The class of a word that reports a signal says so. -/
theorem reads_classify_of_reportsSignal
    (ended : raw ≠ 0)
    (killed : ReportsSignal raw signal) :
    (classify raw).Reads raw := by
  have unexited (code : Int32) : ¬ ReportsExit raw code := fun exited =>
    exited.not_reportsSignal killed
  by_cases listed : signal ∈ interruptSignals
  · have interrupts := (isInterruptSignal_iff signal).mpr listed
    have status : classify raw = .interrupted signal := by
      simp only [classify, ended, killed.ofRaw, interrupts, ↓reduceIte, ofNat_toNat]
    rw [status]
    exact StepStatus.reads_interrupted ⟨listed, .inl killed⟩
  · have ordinary := mt (isInterruptSignal_iff signal).mp listed
    have status : classify raw = .failed none (some signal) := by
      simp only [classify, ended, killed.ofRaw, ordinary, ↓reduceIte, ofNat_toNat]
      rfl
    rw [status]
    refine StepStatus.reads_failed ended ?_ (by simpa using unexited) fun other => ?_
    · rintro other ⟨alsoListed, alsoKilled | exited⟩
      · exact listed (killed.unique alsoKilled ▸ alsoListed)
      · exact unexited _ exited
    · rw [Option.some.injEq]
      exact ⟨fun same => same ▸ killed, killed.unique⟩

/-- A word that reports neither is classified as a failure without either. -/
theorem reads_classify_of_unknown
    (ended : raw ≠ 0)
    (unknown : ChildEnd.ofRaw raw = .unknown)
    (unexited : ∀ code, ¬ ReportsExit raw code)
    (unkilled : ∀ signal, ¬ ReportsSignal raw signal) :
    (classify raw).Reads raw := by
  have status : classify raw = .failed none none := by
    simp only [classify, ended, unknown, ↓reduceIte]
  rw [status]
  refine StepStatus.reads_failed ended ?_ (by simpa using unexited) (by simpa using unkilled)
  rintro signal ⟨_, killed | exited⟩
  · exact unkilled signal killed
  · exact unexited _ exited

end Classified

/-- Every word is classified as it says. -/
theorem reads_classify (raw : Int32) : (classify raw).Reads raw := by
  by_cases ended : raw = 0
  · subst ended
    exact StepStatus.reads_passed
  · rcases reports_cases raw with ⟨_, exited⟩ | ⟨_, killed⟩ | ⟨unknown, unexited, unkilled⟩
    · exact reads_classify_of_reportsExit ended exited
    · exact reads_classify_of_reportsSignal ended killed
    · exact reads_classify_of_unknown ended unknown unexited unkilled

/--
The status of a word is what the word reports: a pass for the word zero only, an
interruption if the child was killed by its signal or has exited with 128 and
the signal, which come to the same, and else a failure with the code or the
signal, if there is one.
-/
theorem classify_reads_word :
    (∀ raw, (classify raw).Reads raw) ∧
      ∀ signal ∈ interruptSignals, ∀ killed exited,
        ReportsSignal killed signal →
          ReportsExit exited (128 + signal) → classify killed = classify exited := by
  refine ⟨reads_classify, fun signal listed killed exited reports alsoReports => ?_⟩
  have first := ((reads_classify killed).interruptedIff signal).mpr ⟨listed, .inl reports⟩
  have second := ((reads_classify exited).interruptedIff signal).mpr ⟨listed, .inr alsoReports⟩
  rw [first, second]

/-- The theorem at two words with the sign set, and one of them with the bit of a core dump. -/
theorem classify_reads_word_negative :
    let killed : Int32 := -126
    let exited : Int32 := -32256
    ReportsSignal killed 2 ∧
      ReportsExit exited (128 + 2) ∧
      classify killed = .interrupted 2 ∧
      classify exited = .interrupted 2 := by
  intro killed exited
  have byUser : ReportsSignal killed 2 := ⟨by decide, by decide, by decide⟩
  have byShell : ReportsExit exited (128 + 2) := ⟨by decide, by decide⟩
  have listed : (2 : Int32) ∈ interruptSignals := by decide
  have status := ((classify_reads_word.1 killed).interruptedIff 2).mpr ⟨listed, .inl byUser⟩
  have same := classify_reads_word.2 2 listed killed exited byUser byShell
  exact ⟨byUser, byShell, status, same ▸ status⟩

/-- A word that is not zero is no pass, even if it reports the exit code 0. -/
example : classify 0x10000 = .failed (some 0) none := by decide

end VerifyPipeline
