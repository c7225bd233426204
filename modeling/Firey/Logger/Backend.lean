import Firey.Logger.Records
import Firey.Logger.Rolling
import Firey.Logger.Stop

/-!
# From a log statement to the files

A server hands its records to an `AsyncLoggingff`: `output` passes what the destructor of a
`Loggerff` gives it to `append`.  The logging thread has a `LogFileff` of its own, which it makes
when it begins, and each buffer that it writes is one call of `LogFileff::append`.

So a record goes through three hands.  `AsyncLogging` keeps it whole in one buffer, the buffer goes
whole into one file, and the files are in order; together, the files hold the records themselves
(`records_filed`).  A record is never longer than a buffer, so none of the assertions behind the
log statement can fail.

Behind the `g_output` of a `FATAL` statement are `g_flush()`, which is `fflush(stdout)` and touches
none of the files, and `abort()`.  The other threads go on until then, so `abort` is an input of its
own, and the last one of a run; a thread that is there is not told from the others.
-/

set_option autoImplicit false

namespace Firey

/-! ## What the logging thread hands over -/

namespace AsyncLogging

/-- The arguments of `outputFile.append` in a step of the logging thread. -/
def handed (s : AsyncLogging) (time : Bytes) : List Bytes :=
  match s.phase with
  | .swapped =>
      if 25 < s.bufferToWrite.length then [dropNotice time (s.bufferToWrite.length - 2)] else []
  | .writing done => ((s.bufferToWrite[done]?).bind id).toList.map fun b => b.buffer.data
  | _ => []

/-- Whether a step ends with `outputFile.flush()`: at the end of an iteration, and behind the
loop. -/
def flushes (s : AsyncLogging) : Bool :=
  match s.phase with
  | .testRunning => !s.running
  | .writing done => s.bufferToWrite.length ≤ done
  | _ => false

/-- The buffers of the last iteration that are still to be written. -/
def toCome (s : AsyncLogging) : List BufferPtr :=
  match s.phase with
  | .writing done => s.bufferToWrite.drop done
  | _ => []

end AsyncLogging

/-- What the files get of an iteration. -/
def Iteration.entries (i : Iteration) : List Bytes := i.notice.toList ++ linesOf i.kept

/-- `LogFileff::flush()`; what is behind `fflush` has been handed over before. -/
def LogDisk.flush (d : LogDisk) : Except Fault LogDisk :=
  match d.log.file_ with
  | none => .error .nullPointer
  | some _ => .ok d

/-! ## The machine -/

/-- `outputFile` is a local variable of `threadFunc`.  `flushed` is history: the files when
`outputFile` was made, or flushed last; a file that is closed is flushed, too.  `aborting` says
that a `FATAL` statement has passed its record on. -/
structure LogBackend where
  basename_ : Bytes
  rollSize_ : ℤ
  logging : AsyncLogging
  outputFile : Option LogDisk
  flushed : List DiskFile
  aborting : Bool

inductive BackendInput
  /-- A log statement, with what its constructor finds. -/
  | log (ctx : LogContext) (call : LoggerCall) (items : List LogItem)
  /-- The logging thread goes on, with the results of `fwrite_unlocked`. -/
  | next (time : Bytes) (answers : ℕ → ℕ)
  | stop
  | joined
  /-- The end of the destructor of a `FATAL` statement. -/
  | abort

/-- What a log statement passes to `g_output`. -/
def LoggerCall.record (g12 : BitVec 64 → Bytes) (ctx : LogContext) (call : LoggerCall)
    (items : List LogItem) : Except Fault LogRecord := do
  let (_, l) ← call.construct ctx
  let s ← (LogStream.machine g12).run l.stream items
  { l with stream := s }.destructor

namespace LogBackend

/-- `setAsyncLogger(basename)` has returned, with this `kRollSize`. -/
def start (basename : Bytes) (rollSize : ℤ) : LogBackend :=
  ⟨basename, rollSize, .start, none, [], false⟩

variable (sys : LogSystem) (g12 : BitVec 64 → Bytes)

/-- A log statement; `output` is in between. -/
def log (s : LogBackend) (ctx : LogContext) (call : LoggerCall) (items : List LogItem) :
    Except Fault LogBackend := do
  let r ← call.record g12 ctx items
  let logging ← s.logging.append r.output
  .ok { s with logging := logging, aborting := s.aborting || r.aborts }

/-- A step of the logging thread; the first one is the constructor of `outputFile`. -/
def next (s : LogBackend) (time : Bytes) (answers : ℕ → ℕ) : Except Fault LogBackend :=
  match s.outputFile with
  | none => do
      let d ← LogDisk.ctor sys s.basename_ s.rollSize_ 3 1024
      .ok { s with outputFile := some d, flushed := d.disk }
  | some d => do
      let logging ← s.logging.next time
      let d ← (LogDisk.machine sys).run d ((s.logging.handed time).map fun bs => ⟨bs, answers⟩)
      if s.logging.flushes then do
        let d ← d.flush
        .ok { s with logging := logging, outputFile := some d, flushed := d.disk }
      else .ok { s with logging := logging, outputFile := some d }

def step (s : LogBackend) : BackendInput → Except Fault LogBackend
  | .log ctx call items => s.log g12 ctx call items
  | .next time answers => s.next sys time answers
  | .stop => do
      let logging ← s.logging.step .stop
      .ok { s with logging := logging }
  | .joined => do
      let logging ← s.logging.step .joined
      .ok { s with logging := logging }
  | .abort => if s.aborting then .error .logFatal else .ok s

def machine : Machine LogBackend BackendInput Fault := ⟨step sys g12⟩

end LogBackend

/-- The records of an input. -/
def BackendInput.records (g12 : BitVec 64 → Bytes) : BackendInput → List Bytes
  | .log ctx call items =>
      match call.record g12 ctx items with
      | .ok r => [r.output]
      | .error _ => []
  | _ => []

/-- Whether an input is a `FATAL` statement. -/
def BackendInput.aborts (g12 : BitVec 64 → Bytes) : BackendInput → Bool
  | .log ctx call items =>
      match call.record g12 ctx items with
      | .ok r => r.aborts
      | .error _ => false
  | _ => false

/-! ## What the pieces do -/

namespace LogDisk

variable {sys : LogSystem} {d : LogDisk}

/-- Texts that are parts of a list of texts put together. -/
lemma exists_parts {α β : Type*} {f : α → β} {xs : List α} {groups : List (List β)}
    (h : groups.flatten = xs.map f) :
    ∃ parts : List (List α), parts.flatten = xs ∧ parts.map (List.map f) = groups := by
  induction groups generalizing xs with
  | nil => exact ⟨[], (List.map_eq_nil_iff.mp h.symm).symm, rfl⟩
  | cons g groups ih =>
    rw [List.flatten_cons] at h
    obtain ⟨first, rest, rfl, hfirst, hrest⟩ := List.map_eq_append_iff.mp h.symm
    obtain ⟨parts, hparts, hgroups⟩ := ih hrest.symm
    exact ⟨first :: parts, by rw [List.flatten_cons, hparts],
      by rw [List.map_cons, hfirst, hgroups]⟩

/-- **Files that hold texts hold their parts.** -/
lemma Holds.parts {chunks : List (List Bytes)} (h : d.Holds (chunks.map List.flatten)) :
    d.Holds chunks.flatten := by
  obtain ⟨groups, hgroups, hcontents⟩ := h
  obtain ⟨parts, rfl, rfl⟩ := exists_parts hgroups
  refine ⟨parts.map List.flatten, List.flatten_flatten.symm, ?_⟩
  rw [hcontents, List.map_map, List.map_map]
  exact List.map_congr_left fun part _ => List.flatten_flatten.symm

/-- Some calls of `append`. -/
lemma Tidy.run_spec (hmono : Monotone sys.time) (hyears : ∀ i, FourDigitYear (sys.time i))
    (hfopen : ∀ i, sys.fopen i = true) {calls : List LogAppend} {lines : List Bytes}
    (h : d.Tidy sys lines)
    (hcalls : ∀ call ∈ calls, ¬ AppendFile.RetryFails call.answers call.logline.length) :
    ∃ e, (machine sys).run d calls = .ok e ∧ e.Tidy sys (lines ++ calls.map LogAppend.logline) := by
  induction calls generalizing d lines with
  | nil => exact ⟨d, rfl, by rwa [List.map_nil, List.append_nil]⟩
  | cons call calls ih =>
    obtain ⟨e, happend, htidy, -⟩ :=
      h.append_spec hmono hyears hfopen (hcalls call List.mem_cons_self)
    obtain ⟨f, hrun, hend⟩ := ih htidy fun c hc => hcalls c (List.mem_cons_of_mem _ hc)
    refine ⟨f, ((machine sys).run_cons_ok happend calls).trans hrun, ?_⟩
    rwa [List.map_cons, List.append_cons]

lemma Tidy.flush_spec {lines : List Bytes} (h : d.Tidy sys lines) : d.flush = .ok d := by
  obtain ⟨n, -, written, hfile⟩ := h.current
  rw [flush, hfile]

end LogDisk

namespace AsyncLogging

variable {s t : AsyncLogging} {time : Bytes}

/-- What is handed over in a step is `chunks`, and it is what the last iterations still lacked. -/
structure Hands (s t : AsyncLogging) (time : Bytes) (chunks : List (List Bytes)) : Prop where
  handed : s.handed time = chunks.map List.flatten
  entries : ∀ written,
    s.iterations.flatMap Iteration.entries = written ++ linesOf s.toCome →
      t.iterations.flatMap Iteration.entries = written ++ chunks.flatten ++ linesOf t.toCome
  idle : t.isIdle = true → s.isIdle = true ∧ chunks = [] ∨ s.flushes = true
  appended : t.appended = s.appended

/-- A step between two iterations hands nothing over. -/
lemma hands_idle (hs : s.isIdle = true) (hhanded : s.handed time = []) (htoCome : t.toCome = [])
    (hiterations : t.iterations = s.iterations) (happended : t.appended = s.appended) :
    s.Hands t time [] where
  handed := hhanded
  entries := by
    intro written hwritten
    have hnone : s.toCome = [] := by
      unfold isIdle at hs
      unfold toCome
      split <;> simp_all
    rw [hiterations, hwritten, hnone, htoCome]
    simp
  idle := fun _ => Or.inl ⟨hs, rfl⟩
  appended := happended

lemma drop_hands (hphase : s.phase = .swapped) (hstep : s.drop time = .ok t) :
    ∃ chunks, s.Hands t time chunks := by
  have htoCome : s.toCome = [] := by rw [toCome, hphase]
  unfold drop at hstep
  obtain ⟨_, _, hstep⟩ := bind_eq_ok hstep
  split at hstep
  next hmany =>
    cases hstep
    refine ⟨[[dropNotice time (s.bufferToWrite.length - 2)]], ?_, fun written h => ?_,
      (by simp [isIdle]), rfl⟩
    · rw [handed, hphase]
      dsimp only
      rw [if_pos hmany, List.map_singleton, List.flatten_singleton]
    · rw [htoCome] at h
      simp [h, Iteration.entries, toCome]
  next hfew =>
    cases hstep
    refine ⟨[], ?_, fun written h => ?_, (by simp [isIdle]), rfl⟩
    · rw [handed, hphase]
      dsimp only
      rw [if_neg hfew, List.map_nil]
    · rw [htoCome] at h
      simp [h, Iteration.entries, toCome]

/-- **What the logging thread hands over** is whole lines. -/
lemma next_hands (h : s.Inv) (hstep : s.next time = .ok t) : ∃ chunks, s.Hands t time chunks := by
  unfold next at hstep
  split at hstep
  next hphase =>
    have hidle : s.isIdle = true := by rw [isIdle, hphase]
    have hhanded : s.handed time = [] := by rw [handed, hphase]
    unfold testRunning at hstep
    split at hstep
    · obtain ⟨_, _, hstep⟩ := bind_eq_ok hstep
      obtain ⟨_, _, hstep⟩ := bind_eq_ok hstep
      obtain ⟨_, _, hstep⟩ := bind_eq_ok hstep
      cases hstep
      exact ⟨[], hands_idle hidle hhanded rfl rfl rfl⟩
    · cases hstep
      exact ⟨[], hands_idle hidle hhanded rfl rfl rfl⟩
  next hphase =>
    have hidle : s.isIdle = true := by rw [isIdle, hphase]
    have hhanded : s.handed time = [] := by rw [handed, hphase]
    split at hstep <;> cases hstep <;> exact ⟨[], hands_idle hidle hhanded rfl rfl rfl⟩
  next hphase =>
    have hidle : s.isIdle = true := by rw [isIdle, hphase]
    cases hstep
    exact ⟨[], hands_idle hidle (by rw [handed, hphase]) rfl rfl rfl⟩
  next hphase => exact drop_hands hphase hstep
  next done hphase =>
    split at hstep
    next p hp =>
      obtain ⟨b, rfl, hb⟩ := h.toWrite p (List.mem_of_getElem? hp)
      cases hstep
      obtain ⟨hlt, hget⟩ := List.getElem?_eq_some_iff.mp hp
      refine ⟨[b.lines], ?_, fun written hwritten => ?_, (by simp [isIdle]), rfl⟩
      · rw [handed, hphase]
        dsimp only
        rw [hp, List.map_singleton, ← hb]
        rfl
      · rw [toCome, hphase] at hwritten
        dsimp only at hwritten
        rw [List.drop_eq_getElem_cons hlt, hget] at hwritten
        rw [hwritten, toCome, List.flatten_singleton, List.append_assoc]
        rfl
    next hnone =>
      have hdone := List.getElem?_eq_none_iff.mp hnone
      have hflushes : s.flushes = true := by
        rw [flushes, hphase]
        exact decide_eq_true hdone
      unfold endIteration at hstep
      obtain ⟨⟨_, _⟩, _, hstep⟩ := bind_eq_ok hstep
      obtain ⟨⟨_, _⟩, _, hstep⟩ := bind_eq_ok hstep
      cases hstep
      refine ⟨[], ?_, fun written hwritten => ?_, fun _ => Or.inr hflushes, rfl⟩
      · rw [handed, hphase]
        dsimp only
        rw [hnone]
        rfl
      · rw [toCome, hphase] at hwritten
        dsimp only at hwritten
        rw [List.drop_eq_nil_of_le hdone] at hwritten
        rw [hwritten, toCome]
        simp
  next hphase =>
    cases hstep
    have hidle : s.isIdle = true := by rw [isIdle, hphase]
    exact ⟨[], hands_idle hidle (by rw [handed, hphase]) (by rw [toCome, hphase]) rfl rfl⟩

end AsyncLogging

/-! ## A log statement -/

/-- A sequence fails in its first part or in its second. -/
lemma bind_eq_error {ε α β : Type} {x : Except ε α} {f : α → Except ε β} {e : ε}
    (h : (x >>= f) = .error e) : x = .error e ∨ ∃ a, x = .ok a ∧ f a = .error e := by
  cases x with
  | error e' =>
    cases h
    exact Or.inl rfl
  | ok a => exact Or.inr ⟨a, rfl, h⟩

/-- The assertions of the constructors of `Loggerff`. -/
def Formatting (e : Fault) : Prop :=
  e = .assertion .fmt ∨ e = .assertion .helper ∨ e = .assertion .formatTimeSeconds ∨
    e = .assertion .formatTimeMicroseconds

/-- A statement fails in its constructor, and there in what it formats. -/
def BackendInput.Fails (i : BackendInput) (e : Fault) : Prop :=
  match i with
  | .log ctx call _ => call.construct ctx = .error e ∧ Formatting e
  | _ => False

namespace Logger

/-- A failure can only be that of the check in front of what cannot fail. -/
lemma check_bind_error {α : Type} {a : Assertion} {p : Prop} [Decidable p]
    {f : Unit → Except Fault α} {e : Fault} (h : (check a p >>= f) = .error e) :
    e = .assertion a ∨ f () = .error e := by
  by_cases hp : p
  · rw [check_true hp, ok_bind] at h
    exact Or.inr h
  · rw [check_false hp, error_bind] at h
    cases h
    exact Or.inl rfl

lemma append_ne_error {s : LogStream} (h : s.Fits) {buf : Bytes} {e : Fault} :
    s.append buf ≠ .error e := by
  obtain ⟨t, ht, -⟩ := LogStream.append_spec h buf
  rw [ht]
  exact nofun

lemma insertHelper_error {s : LogStream} (h : s.Fits) {str : Bytes} {len : ℕ} {e : Fault}
    (he : insertHelper s str len = .error e) : Formatting e := by
  rcases check_bind_error he with rfl | he
  · exact Or.inr (Or.inl rfl)
  · exact absurd he (append_ne_error h)

lemma formatTime_error {times : TimeCache} {s : LogStream} (h : s.Fits) {now : ℕ} {e : Fault}
    (he : formatTime times s now = .error e) : Formatting e := by
  rcases bind_eq_error he with hrefresh | ⟨cache, -, he⟩
  · unfold refresh at hrefresh
    split at hrefresh
    · rcases check_bind_error hrefresh with rfl | hrefresh
      · exact Or.inr (Or.inr (Or.inl rfl))
      · cases hrefresh
    · cases hrefresh
  rcases bind_eq_error he with hfmt | ⟨us, -, he⟩
  · rcases check_bind_error hfmt with rfl | hfmt
    · exact Or.inl rfl
    · cases hfmt
  rcases check_bind_error he with rfl | he
  · exact Or.inr (Or.inr (Or.inr rfl))
  rcases bind_eq_error he with htime | ⟨s₁, h₁, he⟩
  · exact insertHelper_error h htime
  rcases bind_eq_error he with hus | ⟨s₂, h₂, he⟩
  · exact insertHelper_error (insertHelper_fits h h₁) hus
  · cases he

lemma impl_error {ctx : LogContext} {level : LogLevel} {savedErrno : BitVec 32} {file : Bytes}
    {line : BitVec 32} {e : Fault} (he : impl ctx level savedErrno file line = .error e) :
    Formatting e := by
  have hctor : (LogStream.ctor ctx.data_).Fits := Nat.zero_le _
  rcases bind_eq_error he with htime | ⟨⟨times, s₁⟩, h₁, he⟩
  · exact formatTime_error hctor htime
  have hfits₁ := formatTime_fits hctor h₁
  rcases bind_eq_error he with htid | ⟨s₂, h₂, he⟩
  · exact insertHelper_error hfits₁ htid
  have hfits₂ := insertHelper_fits hfits₁ h₂
  rcases bind_eq_error he with hlevel | ⟨s₃, h₃, he⟩
  · exact insertHelper_error hfits₂ hlevel
  have hfits₃ := insertHelper_fits hfits₂ h₃
  -- the rest only inserts text and a number
  dsimp only at he
  split at he
  · obtain ⟨t₁, k₁, hfits₄, -⟩ := LogStream.append_spec hfits₃ ctx.strerror
    obtain ⟨t₂, k₂, hfits₅, -⟩ := LogStream.append_spec hfits₄ (octets "(errno=".toList)
    obtain ⟨t₃, k₃, hfits₆, -⟩ := LogStream.insertInt_text hfits₅ savedErrno
    obtain ⟨t₄, k₄, -⟩ := LogStream.append_spec hfits₆ (octets ")".toList)
    simp only [LogStream.insertCString, k₁, k₂, k₃, k₄, ok_bind] at he
    cases he
  · cases he

/-- **A constructor fails** only in what it formats. -/
lemma construct_error {ctx : LogContext} {call : LoggerCall} {e : Fault}
    (he : call.construct ctx = .error e) : Formatting e := by
  cases call with
  | info file line => exact impl_error he
  | leveled file line level => exact impl_error he
  | withErrno file line toAbort => exact impl_error he
  | inFunction file line level func =>
    rcases bind_eq_error he with himpl | ⟨⟨ctx₁, l₁⟩, h₁, he⟩
    · exact impl_error himpl
    obtain ⟨t₁, k₁, hfits, -⟩ := LogStream.append_spec (impl_fits h₁) func
    obtain ⟨t₂, k₂, -⟩ := LogStream.append_spec hfits (octets " ".toList)
    simp only [LogStream.insertCString, k₁, k₂, ok_bind] at he
    cases he

end Logger

/-- **A log statement** passes a record to `g_output` that fits a buffer, or fails in the
constructor. -/
lemma LoggerCall.record_cases {g12 : BitVec 64 → Bytes} (hg12 : ∀ v, (g12 v).length ≤ 31)
    (ctx : LogContext) (call : LoggerCall) (items : List LogItem) :
    (∃ r, call.record g12 ctx items = .ok r ∧ r.output.length ≤ kLargeBuffer) ∨
      ∃ e, call.record g12 ctx items = .error e ∧ call.construct ctx = .error e := by
  unfold record
  rcases hconstruct : call.construct ctx with e | ⟨ctx', l⟩
  · exact Or.inr ⟨e, rfl, rfl⟩
  · obtain ⟨s, hrun, hfits⟩ := (LogStream.machine g12).run_total
      (fun s item h => LogStream.insertItem_fits h hg12 item) (Logger.construct_fits hconstruct)
      items
    obtain ⟨u, l', -, -, hfinish, htext⟩ :=
      Logger.finish_spec (l := { l with stream := s }) hfits
    refine Or.inl ⟨{ output := l'.stream.text, aborts := l'.level = .FATAL }, ?_, ?_⟩
    · rw [ok_bind]
      dsimp only
      rw [hrun, ok_bind, Logger.destructor, hfinish, ok_bind]
    dsimp only
    rw [htext]
    exact (List.length_take_le _ _).trans (by decide)

/-! ## The invariant -/

/-- A clock that does not go back and shows years of four digits, and files that can be opened. -/
structure LogSystem.Proper (sys : LogSystem) : Prop where
  mono : Monotone sys.time
  pos : 0 < sys.time 0
  years : ∀ i, FourDigitYear (sys.time i)
  opens : ∀ i, sys.fopen i = true

namespace LogBackend

/-- The files are what was made of the iterations so far, but for the buffers that are still to be
written.  Where no iteration was overloaded, that is the records, from the first on.  While the
thread writes nothing, everything is flushed. -/
structure Filed (s : LogBackend) (d : LogDisk) : Prop where
  files : d.FreshFiles
  held : ∃ written, d.Holds written ∧
    s.logging.iterations.flatMap Iteration.entries = written ++ linesOf s.logging.toCome
  undropped : (∀ i ∈ s.logging.iterations, (i.kept ++ i.dropped).length ≤ 25) →
    ∃ written, d.Holds written ∧
      s.logging.appended = written ++ linesOf s.logging.toCome ++ s.logging.pending
  flushed : s.logging.isIdle = true → s.flushed = d.disk

/-- Where the `records` of the log statements are. -/
structure Accounts (s : LogBackend) (records : List Bytes) : Prop where
  appended : s.logging.appended = records
  decided : s.logging.appended =
    s.logging.iterations.flatMap Iteration.lines ++ s.logging.pending
  settled : ∀ i ∈ s.logging.iterations, i.Settled
  unopened : s.outputFile = none → s.logging.iterations = []
  filed : ∀ d, s.outputFile = some d → s.Filed d

/-- What was handed to `outputFile`, call by call. -/
def Handed (sys : LogSystem) (s : LogBackend) (d : LogDisk) : Prop :=
  ∃ chunks : List (List Bytes), d.Tidy sys (chunks.map List.flatten) ∧
    s.logging.iterations.flatMap Iteration.entries =
      chunks.flatten ++ linesOf s.logging.toCome ∧
    (s.logging.isIdle = true → s.flushed = d.disk)

structure Inv (sys : LogSystem) (s : LogBackend) : Prop where
  basename : 47 ∉ s.basename_
  logging : s.logging.Inv
  unopened : s.outputFile = none → s.logging.phase = .testRunning ∧ s.logging.iterations = []
  handed : ∀ d, s.outputFile = some d → s.Handed sys d

/-- The kernel takes what a step of the logging thread writes. -/
def Writes (s : LogBackend) : BackendInput → Prop
  | .next time answers =>
      ∀ chunk ∈ s.logging.handed time, ¬ AppendFile.RetryFails answers chunk.length
  | _ => True

variable {sys : LogSystem} {g12 : BitVec 64 → Bytes} {s : LogBackend}

lemma start_inv {basename : Bytes} (h : 47 ∉ basename) (rollSize : ℤ) :
    (start basename rollSize).Inv sys where
  basename := h
  logging := AsyncLogging.start_inv
  unopened := fun _ => ⟨rfl, rfl⟩
  handed := nofun

/-- An iteration that is not overloaded writes its lines. -/
lemma entries_of_few {i : Iteration} (h : i.Settled) (hfew : (i.kept ++ i.dropped).length ≤ 25) :
    i.entries = i.lines := by
  rw [Iteration.Settled, if_neg (by omega)] at h
  rw [Iteration.entries, Iteration.lines, h.1, h.2, List.append_nil, Option.toList_none,
    List.nil_append]

lemma Inv.accounts (h : s.Inv sys) : s.Accounts s.logging.appended where
  appended := rfl
  decided := h.logging.conserved.lines
  settled := h.logging.settled
  unopened := fun hnone => (h.unopened hnone).2
  filed := by
    intro d hd
    obtain ⟨chunks, htidy, hentries, hflushed⟩ := h.handed d hd
    refine ⟨htidy.freshFiles, ⟨_, htidy.holds.parts, hentries⟩, fun hfew => ?_, hflushed⟩
    refine ⟨_, htidy.holds.parts, ?_⟩
    have hsame : s.logging.iterations.flatMap Iteration.lines =
        s.logging.iterations.flatMap Iteration.entries :=
      List.flatMap_congr fun i hi =>
        (entries_of_few (h.logging.settled i hi) (hfew i hi)).symm
    rw [← hentries, ← hsame]
    exact h.logging.conserved.lines

/-- Steps of the other threads do not touch the files. -/
lemma Inv.frame (h : s.Inv sys) {l : AsyncLogging} (hinv : l.Inv)
    (hphase : l.phase = s.logging.phase) (hiterations : l.iterations = s.logging.iterations)
    (htoWrite : l.bufferToWrite = s.logging.bufferToWrite) (aborting : Bool) :
    ({ s with logging := l, aborting := aborting }).Inv sys where
  basename := h.basename
  logging := hinv
  unopened := fun hnone =>
    ⟨hphase.trans (h.unopened hnone).1, hiterations.trans (h.unopened hnone).2⟩
  handed := by
    intro d hd
    obtain ⟨chunks, htidy, hentries, hflushed⟩ := h.handed d hd
    refine ⟨chunks, htidy, ?_, fun hidle => hflushed ?_⟩
    · dsimp only
      rw [AsyncLogging.toCome, hphase, htoWrite, hiterations]
      exact hentries
    · rw [AsyncLogging.isIdle] at hidle ⊢
      dsimp only at hidle
      rwa [hphase] at hidle

/-! ## One lemma a step -/

/-- An input leads from one state in order to another one. -/
structure Goes (sys : LogSystem) (g12 : BitVec 64 → Bytes) (s : LogBackend) (i : BackendInput)
    (t : LogBackend) : Prop where
  inv : t.Inv sys
  appended : t.logging.appended = s.logging.appended ++ i.records g12
  aborting : t.aborting = (s.aborting || i.aborts g12)

/-- The process ends: in the constructor of a statement, or in the destructor of another one. -/
def Ends (s : LogBackend) (i : BackendInput) (e : Fault) : Prop :=
  i.Fails e ∨ i = .abort ∧ e = .logFatal ∧ s.aborting = true

/-- What comes of a step: a state in order, with the record of the input, or the end. -/
def Comes (sys : LogSystem) (g12 : BitVec 64 → Bytes) (s : LogBackend) (i : BackendInput) : Prop :=
  (∃ t, s.step sys g12 i = .ok t ∧ s.Goes sys g12 i t) ∨
  ∃ e, s.step sys g12 i = .error e ∧ s.Ends i e

lemma log_comes (hg12 : ∀ v, (g12 v).length ≤ 31) (h : s.Inv sys) (ctx : LogContext)
    (call : LoggerCall) (items : List LogItem) : s.Comes sys g12 (.log ctx call items) := by
  rcases call.record_cases hg12 ctx items with ⟨r, hr, hlen⟩ | ⟨e, he, hconstruct⟩
  · obtain ⟨l, hl, hinv⟩ := AsyncLogging.append_inv h.logging hlen
    obtain ⟨happended, hphase, -, -, hiterations, htoWrite⟩ := AsyncLogging.append_frame hl
    refine Or.inl ⟨{ s with logging := l, aborting := s.aborting || r.aborts }, ?_,
      h.frame hinv hphase hiterations htoWrite _, ?_, ?_⟩
    · show s.log g12 ctx call items = _
      rw [log, hr, ok_bind, hl, ok_bind]
    · dsimp only [BackendInput.records]
      rw [hr, happended]
    · dsimp only [BackendInput.aborts]
      rw [hr]
  · refine Or.inr ⟨e, ?_, Or.inl ⟨hconstruct, Logger.construct_error hconstruct⟩⟩
    show s.log g12 ctx call items = _
    rw [log, he, error_bind]

/-- The logging thread makes its `LogFileff`. -/
lemma open_comes (hsys : sys.Proper) (h : s.Inv sys) (hnone : s.outputFile = none) (time : Bytes)
    (answers : ℕ → ℕ) : s.Comes sys g12 (.next time answers) := by
  obtain ⟨hphase, hiterations⟩ := h.unopened hnone
  obtain ⟨d, hctor, htidy⟩ :=
    LogDisk.ctor_spec hsys.years hsys.opens hsys.pos h.basename s.rollSize_ 3 1024
  refine Or.inl ⟨{ s with outputFile := some d, flushed := d.disk }, ?_, ?_, ?_,
    (Bool.or_false _).symm⟩
  · show s.next sys time answers = _
    rw [next, hnone]
    dsimp only
    rw [hctor, ok_bind]
  · refine ⟨h.basename, h.logging, nofun, ?_⟩
    rintro d' ⟨⟩
    refine ⟨[], htidy, ?_, fun _ => rfl⟩
    rw [hiterations, AsyncLogging.toCome, hphase]
    rfl
  · exact (List.append_nil _).symm

/-- **The logging thread goes on**: what it hands over is written behind the rest. -/
lemma next_comes (hsys : sys.Proper) (h : s.Inv sys) {time : Bytes} {answers : ℕ → ℕ}
    (hwrites : s.Writes (.next time answers)) : s.Comes sys g12 (.next time answers) := by
  rcases hfile : s.outputFile with _ | d
  · exact open_comes hsys h hfile time answers
  obtain ⟨l, hl, hinv⟩ := AsyncLogging.next_inv h.logging time
  obtain ⟨chunks, hhands⟩ := AsyncLogging.next_hands h.logging hl
  obtain ⟨written, htidy, hentries, hflushed⟩ := h.handed d hfile
  have hcalls : ∀ call ∈ (s.logging.handed time).map fun bs => (⟨bs, answers⟩ : LogAppend),
      ¬ AppendFile.RetryFails call.answers call.logline.length := by
    intro call hcall
    obtain ⟨bs, hbs, rfl⟩ := List.mem_map.mp hcall
    exact hwrites bs hbs
  obtain ⟨e, hrun, htidy'⟩ := htidy.run_spec hsys.mono hsys.years hsys.opens hcalls
  have hlines : ((s.logging.handed time).map fun bs => (⟨bs, answers⟩ : LogAppend)).map
      LogAppend.logline = chunks.map List.flatten := by
    rw [List.map_map, hhands.handed]
    exact List.map_id _
  rw [hlines, ← List.map_append] at htidy'
  have hnext := hhands.entries _ hentries
  rw [← List.flatten_append] at hnext
  have hrecords : l.appended = s.logging.appended ++ [] := by
    rw [hhands.appended, List.append_nil]
  cases hflushes : s.logging.flushes with
  | true =>
    refine Or.inl ⟨{ s with logging := l, outputFile := some e, flushed := e.disk }, ?_, ?_,
      hrecords, (Bool.or_false _).symm⟩
    · show s.next sys time answers = _
      rw [next, hfile]
      dsimp only
      rw [hl, ok_bind, hrun, ok_bind, if_pos hflushes, htidy'.flush_spec, ok_bind]
    · refine ⟨h.basename, hinv, nofun, ?_⟩
      rintro e' ⟨⟩
      exact ⟨written ++ chunks, htidy', hnext, fun _ => rfl⟩
  | false =>
    refine Or.inl ⟨{ s with logging := l, outputFile := some e }, ?_, ?_, hrecords,
      (Bool.or_false _).symm⟩
    · show s.next sys time answers = _
      rw [next, hfile]
      dsimp only
      rw [hl, ok_bind, hrun, ok_bind, if_neg (Bool.eq_false_iff.mp hflushes)]
    · refine ⟨h.basename, hinv, nofun, ?_⟩
      rintro e' ⟨⟩
      refine ⟨written ++ chunks, htidy', hnext, fun hidle => ?_⟩
      -- nothing was written since the last flush
      rcases hhands.idle hidle with ⟨hbefore, hnil⟩ | hflush
      · rw [hhands.handed, hnil] at hrun
        cases hrun
        exact hflushed hbefore
      · rw [hflush] at hflushes
        cases hflushes

/-- `stop()` and the return of its `join`. -/
lemma stop_comes (h : s.Inv sys) {i : LogInput} (hi : i = .stop ∨ i = .joined) :
    ∃ l, s.logging.step i = .ok l ∧ ({ s with logging := l }).Inv sys ∧
      l.appended = s.logging.appended := by
  rcases hi with rfl | rfl
  · obtain ⟨l, hl, hinv⟩ := AsyncLogging.step_inv h.logging (i := .stop) trivial
    have hstep := hl
    unfold AsyncLogging.step at hstep
    dsimp only at hstep
    split at hstep <;> cases hstep <;> exact ⟨_, hl, h.frame hinv rfl rfl rfl _, rfl⟩
  · obtain ⟨l, hl, hinv⟩ := AsyncLogging.step_inv h.logging (i := .joined) trivial
    have hstep := hl
    unfold AsyncLogging.step at hstep
    dsimp only at hstep
    split at hstep <;> cases hstep <;> exact ⟨_, hl, h.frame hinv rfl rfl rfl _, rfl⟩

lemma step_comes (hsys : sys.Proper) (hg12 : ∀ v, (g12 v).length ≤ 31) (h : s.Inv sys)
    {i : BackendInput} (hi : s.Writes i) : s.Comes sys g12 i := by
  cases i with
  | log ctx call items => exact log_comes hg12 h ctx call items
  | next time answers => exact next_comes hsys h hi
  | stop =>
    obtain ⟨l, hl, hinv, happended⟩ := stop_comes h (Or.inl rfl)
    refine Or.inl ⟨{ s with logging := l }, ?_, hinv, happended.trans (List.append_nil _).symm,
      (Bool.or_false _).symm⟩
    rw [step, hl, ok_bind]
  | joined =>
    obtain ⟨l, hl, hinv, happended⟩ := stop_comes h (Or.inr rfl)
    refine Or.inl ⟨{ s with logging := l }, ?_, hinv, happended.trans (List.append_nil _).symm,
      (Bool.or_false _).symm⟩
    rw [step, hl, ok_bind]
  | abort =>
    by_cases haborting : s.aborting
    · exact Or.inr ⟨.logFatal, by rw [step, if_pos haborting], Or.inr ⟨rfl, rfl, haborting⟩⟩
    · exact Or.inl ⟨s, by rw [step, if_neg haborting], h, (List.append_nil _).symm,
        (Bool.or_false _).symm⟩

/-! ## Runs -/

lemma run_goes (hsys : sys.Proper) (hg12 : ∀ v, (g12 v).length ≤ 31) {t : LogBackend}
    {is : List BackendInput} (h : s.Inv sys) (hwrites : (machine sys g12).Along Writes s is)
    (hrun : (machine sys g12).run s is = .ok t) :
    t.Inv sys ∧
      t.logging.appended = s.logging.appended ++ is.flatMap (BackendInput.records g12) ∧
      t.aborting = (s.aborting || is.any (BackendInput.aborts g12)) := by
  induction is generalizing s with
  | nil =>
    cases hrun
    exact ⟨h, (List.append_nil _).symm, (Bool.or_false _).symm⟩
  | cons i is ih =>
    obtain ⟨hi, hrest⟩ := hwrites
    rcases step_comes hsys hg12 h hi with ⟨u, hu, hgoes⟩ | ⟨e, he, -⟩
    · change (machine sys g12).step s i = .ok u at hu
      rw [hu] at hrest
      rw [Machine.run_cons_ok _ hu] at hrun
      obtain ⟨hinv, happended, haborting⟩ := ih hgoes.inv hrest hrun
      refine ⟨hinv, ?_, ?_⟩
      · rw [happended, hgoes.appended, List.flatMap_cons, List.append_assoc]
      · rw [haborting, hgoes.aborting, List.any_cons, Bool.or_assoc]
    · rw [Machine.run_cons_error _ he] at hrun
      cases hrun

/-- What a run has made of its log statements: where the records are, and whether one of them was
`FATAL`. -/
structure Has (s : LogBackend) (g12 : BitVec 64 → Bytes) (is : List BackendInput) : Prop where
  accounts : s.Accounts (is.flatMap (BackendInput.records g12))
  aborting : s.aborting = true ↔ ∃ i ∈ is, i.aborts g12 = true

lemma run_has (hsys : sys.Proper) (hg12 : ∀ v, (g12 v).length ≤ 31) {basename : Bytes}
    (hbasename : 47 ∉ basename) (rollSize : ℤ) {is : List BackendInput}
    (hwrites : (machine sys g12).Along Writes (start basename rollSize) is)
    (hrun : (machine sys g12).run (start basename rollSize) is = .ok s) : s.Has g12 is := by
  obtain ⟨hinv, happended, haborting⟩ :=
    run_goes hsys hg12 (start_inv hbasename rollSize) hwrites hrun
  change s.logging.appended = [] ++ is.flatMap (BackendInput.records g12) at happended
  change s.aborting = (false || is.any (BackendInput.aborts g12)) at haborting
  rw [List.nil_append] at happended
  exact ⟨happended ▸ hinv.accounts, by rw [haborting, Bool.false_or, List.any_eq_true]⟩

/-- **Records reach the files.**  In every run of the log statements of all threads, of the logging
thread and of `stop`: the files hold what the iterations wrote, record by record, in order and each
record whole in one file, and what they do not hold yet is in the buffers; without overload, that
is exactly the records of the statements.  The process ends only at an assertion in the constructor
of a statement, and behind a `FATAL` one; up to there, it is the same. -/
theorem records_filed (hsys : sys.Proper) (hg12 : ∀ v, (g12 v).length ≤ 31) {basename : Bytes}
    (hbasename : 47 ∉ basename) (rollSize : ℤ) {is : List BackendInput}
    (hwrites : (machine sys g12).Along Writes (start basename rollSize) is) :
    (∃ s, (machine sys g12).run (start basename rollSize) is = .ok s ∧ s.Has g12 is) ∨
    ∃ before i after s e, is = before ++ i :: after ∧
      (machine sys g12).run (start basename rollSize) before = .ok s ∧ s.Has g12 before ∧
      s.step sys g12 i = .error e ∧ s.Ends i e := by
  rcases hrun : (machine sys g12).run (start basename rollSize) is with e | s
  · obtain ⟨before, i, after, s, rfl, hbefore, hi⟩ := (machine sys g12).run_error hrun
    obtain ⟨hwrites₁, hwrites₂⟩ := (machine sys g12).along_append hwrites
    refine Or.inr ⟨before, i, after, s, e, rfl, hbefore,
      run_has hsys hg12 hbasename rollSize hwrites₁ hbefore, hi, ?_⟩
    have hinv := (run_goes hsys hg12 (start_inv hbasename rollSize) hwrites₁ hbefore).1
    rcases step_comes hsys hg12 hinv (hwrites₂ s hbefore).1 with ⟨t, ht, -⟩ | ⟨e', he', hends⟩
    · change s.step sys g12 i = .error e at hi
      rw [ht] at hi
      cases hi
    · change s.step sys g12 i = .error e at hi
      rw [he'] at hi
      cases hi
      exact hends
  · exact Or.inl ⟨s, rfl, run_has hsys hg12 hbasename rollSize hwrites hrun⟩

/-- Two statements of one thread, `stop()`, and a `FATAL` one, whose record stays in the buffer; the
kernel takes three octets at a time. -/
theorem records_filed_two :
    let sys : LogSystem :=
      ⟨fun i => 1700000000 + min i 2, fun _ => some (octets "host".toList), fun _ => 7,
        fun _ => true⟩
    let g12 : BitVec 64 → Bytes := fun _ => octets "1.5".toList
    let log : BackendInput :=
      .log Logger.sampleContext (.info (octets "net/main.cpp".toList) 12)
        [.string (octets "up".toList)]
    let fatal : BackendInput :=
      .log Logger.sampleContext (.leveled (octets "net/main.cpp".toList) 13 .FATAL) []
    let next : BackendInput := .next [] fun _ => 3
    let is := [log, next, next, next, log, next, next, next, .stop, next, .joined, fatal, .abort]
    (∃ s, (machine sys g12).run (start (octets "firey".toList) 100) is = .ok s ∧ s.Has g12 is) ∨
    ∃ before i after s e, is = before ++ i :: after ∧
      (machine sys g12).run (start (octets "firey".toList) 100) before = .ok s ∧
      s.Has g12 before ∧ s.step sys g12 i = .error e ∧ s.Ends i e := by
  intro sys g12 log fatal next is
  refine records_filed ⟨fun i j h => Nat.add_le_add_left (min_le_min_right 2 h) _, by decide,
    fun i => fourDigitYear_of_le ?_, fun _ => rfl⟩ (fun _ => by decide) (by decide) 100 ?_
  · dsimp only [sys]
    omega
  · have hnext : ∀ s : LogBackend, s.Writes next := by
      rintro s chunk - ⟨i, -, -, hzero⟩
      cases hzero
    refine Machine.along_of_mem _ (fun i hi s => ?_) _
    simp only [is, List.mem_cons, List.not_mem_nil, or_false] at hi
    rcases hi with rfl | rfl | rfl | rfl | rfl | rfl | rfl | rfl | rfl | rfl | rfl | rfl | rfl
    all_goals first | exact hnext s | exact trivial

end LogBackend

end Firey
