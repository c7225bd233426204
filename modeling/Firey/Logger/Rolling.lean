import Firey.Logger.LogFile
import Firey.Logger.TimeOrder

/-!
# Rolling partitions the log

The name of a file has the second in it at which it is opened, in a fixed width behind the base name,
so files that are opened at different seconds have different names (`LogFile.name_inj`).  `rollFile`
refuses to open a second one in the same second.  So each file is a new one, and what is appended
goes to the last one (`Tidy`).
-/

set_option autoImplicit false

namespace Firey

namespace LogFile

/-- The name begins with the base name and the second. -/
def NamedAfter (basename : Bytes) (o : LogOpening) : Prop :=
  FourDigitYear o.second ∧ ∃ rest, o.name = basename ++ (timebuf o.second ++ rest)

/-- **The name tells the second.** -/
lemma name_inj {basename : Bytes} {o p : LogOpening} (ho : NamedAfter basename o)
    (hp : NamedAfter basename p) (h : o.name = p.name) : o.second = p.second := by
  obtain ⟨hyear, rest, ho⟩ := ho
  obtain ⟨hyear', rest', hp⟩ := hp
  rw [ho, hp] at h
  have htail := List.append_cancel_left h
  have htimebuf := (List.append_inj htail
    ((length_timebuf hyear).trans (length_timebuf hyear').symm)).1
  rw [timebuf_eq hyear, timebuf_eq hyear'] at htimebuf
  have hfields := List.append_cancel_right (List.append_cancel_left htimebuf)
  have hfits := fitFields_shown hyear [] (octets "-".toList) []
  have hfits' := fitFields_shown hyear' [] (octets "-".toList) []
  exact shownFields_inj.mp ((fieldsText_inj hfits hfits').mp hfields)

end LogFile

namespace LogDisk

variable {sys : LogSystem} {d : LogDisk} {lines : List Bytes}

/-- The files hold the lines one after the other, each of them whole in one file. -/
def Holds (d : LogDisk) (lines : List Bytes) : Prop :=
  ∃ groups : List (List Bytes),
    groups.flatten = lines ∧ d.disk.map DiskFile.contents = groups.map List.flatten

/-- The file in use has counted no more than `rollSize_`, or the clock has been read, after `since`
readings, and it was opened in the second that the clock showed last. -/
def Bounded (sys : LogSystem) (since : ℕ) (d : LogDisk) : Prop :=
  ∃ h o, d.log.file_ = some h ∧ d.opened.getLast? = some o ∧
    ((h.writtenBytes : ℤ) ≤ d.log.rollSize_ ∨
      since < d.readings ∧ o.second = sys.time (d.readings - 1))

/-- Each file was made by one `fopen`, each at a later second than the one before, and they have
different names. -/
structure FreshFiles (d : LogDisk) : Prop where
  created : d.disk.map DiskFile.name = d.opened.map LogOpening.name
  increasing : d.opened.Pairwise fun o p => o.second < p.second
  distinct : (d.opened.map LogOpening.name).Nodup

/-- What has been written is kept, and the names of the files tell when they were opened. -/
structure Kept (d : LogDisk) (lines : List Bytes) : Prop where
  holds : d.Holds lines
  created : d.disk.map DiskFile.name = d.opened.map LogOpening.name
  increasing : d.opened.Pairwise fun o p => o.second < p.second
  named : ∀ o ∈ d.opened, LogFile.NamedAfter d.log.basename_ o
  early : ∀ o ∈ d.opened, o.second ≤ d.log.lastRoll_

/-- The state between two calls: the last file is in use. -/
structure Tidy (sys : LogSystem) (d : LogDisk) (lines : List Bytes) : Prop extends
    d.Kept lines where
  last : ∃ o, d.opened.getLast? = some o ∧ o.second = d.log.lastRoll_
  read : ∃ j < d.readings, d.log.lastRoll_ = sys.time j
  current : ∃ n, d.disk.length = n + 1 ∧ ∃ written, d.log.file_ = some ⟨n, written⟩

lemma Kept.freshFiles (h : d.Kept lines) : d.FreshFiles where
  created := h.created
  increasing := h.increasing
  distinct := by
    rw [List.Nodup, List.pairwise_map]
    refine h.increasing.imp_of_mem fun ho hp hlt heq => ?_
    exact hlt.ne (LogFile.name_inj (h.named _ ho) (h.named _ hp) heq)

namespace Tidy

/-- What is not about the files may change, and the clock may be read. -/
lemma frame (h : d.Tidy sys lines) {e : LogDisk} (hdisk : e.disk = d.disk)
    (hopened : e.opened = d.opened) (hreadings : d.readings ≤ e.readings)
    (hbasename : e.log.basename_ = d.log.basename_) (hlast : e.log.lastRoll_ = d.log.lastRoll_)
    (hfile : e.log.file_ = d.log.file_) : e.Tidy sys lines where
  holds := by
    unfold Holds
    rw [hdisk]
    exact h.holds
  created := by
    rw [hdisk, hopened]
    exact h.created
  increasing := by
    rw [hopened]
    exact h.increasing
  named := by
    rw [hopened, hbasename]
    exact h.named
  early := by
    rw [hopened, hlast]
    exact h.early
  last := by
    rw [hopened, hlast]
    exact h.last
  read := by
    obtain ⟨j, hj, hread⟩ := h.read
    exact ⟨j, hj.trans_le hreadings, hlast.trans hread⟩
  current := by
    rw [hdisk, hfile]
    exact h.current

end Tidy

/-! ## The operations -/

/-- **`append`** of a line that the file takes puts it behind what the last file has. -/
lemma write_spec (h : d.Tidy sys lines) {handle : LogHandle} (hfile : d.log.file_ = some handle)
    {call : LogAppend} (hcall : ¬ AppendFile.RetryFails call.answers call.logline.length) :
    ∃ k e, d.write handle call = .ok (k, e) ∧ e.Tidy sys (lines ++ [call.logline]) ∧
      e.log.file_ = some k ∧ e.readings = d.readings := by
  obtain ⟨n, hlen, written, hcurrent⟩ := h.current
  cases hfile.symm.trans hcurrent
  obtain ⟨closed, cur, hdisk⟩ : ∃ closed cur, d.disk = closed ++ [cur] := by
    refine (List.eq_nil_or_concat' d.disk).resolve_left fun hnil => ?_
    rw [hnil] at hlen
    cases hlen
  obtain ⟨groups, hgroups, hcontents⟩ := h.holds
  obtain ⟨first, last, rfl⟩ : ∃ first last, groups = first ++ [last] := by
    refine (List.eq_nil_or_concat' groups).resolve_left ?_
    rintro rfl
    rw [List.map_eq_nil_iff.mp hcontents] at hlen
    cases hlen
  have hn : n = closed.length := by
    rw [hdisk, List.length_append, List.length_singleton] at hlen
    omega
  obtain ⟨k, -, happend, hend⟩ :=
    AppendFile.append_spec ⟨cur.contents, written⟩ call.answers call.logline
  have hwhole : k = call.logline.length := by
    rcases hend with ⟨hk, -⟩ | ⟨-, hfails⟩
    · exact hk
    · exact absurd hfails hcall
  rw [hwhole, List.take_length] at happend
  have hget : d.disk.getD n ⟨[], []⟩ = cur := by
    rw [hdisk, hn, List.getD_eq_getElem?_getD, List.getElem?_concat_length, Option.getD_some]
  have hset : d.disk.set n ⟨cur.name, cur.contents ++ call.logline⟩ =
      closed ++ [⟨cur.name, cur.contents ++ call.logline⟩] := by
    rw [hdisk, hn, List.set_append_right _ _ le_rfl, Nat.sub_self, List.set_cons_zero]
  refine ⟨⟨n, written + call.logline.length⟩,
    { d with
      log := { d.log with file_ := some ⟨n, written + call.logline.length⟩ }
      disk := closed ++ [⟨cur.name, cur.contents ++ call.logline⟩] }, ?_, ?_, rfl, rfl⟩
  · rw [write, hget, happend, ok_bind]
    dsimp only
    rw [hset]
  · rw [hdisk, List.map_append, List.map_append, List.map_singleton, List.map_singleton] at hcontents
    obtain ⟨hfirst, hlast⟩ := List.append_inj' hcontents rfl
    have hcreated := h.created
    rw [hdisk, List.map_append, List.map_singleton] at hcreated
    exact
      { holds := by
          refine ⟨first ++ [last ++ [call.logline]], ?_, ?_⟩
          · rw [← hgroups, List.flatten_concat, List.flatten_concat, List.append_assoc]
          · rw [List.map_append, List.map_append, List.map_singleton, List.map_singleton, hfirst,
              List.flatten_concat, List.singleton_inj.mp hlast]
        created := by rw [List.map_append, List.map_singleton, hcreated]
        increasing := h.increasing
        named := h.named
        early := h.early
        last := h.last
        read := h.read
        current := ⟨n, by rw [hn, List.length_append, List.length_singleton], _, rfl⟩ }

/-- A name that no file has makes a new one. -/
lemma openFile_new {filename : Bytes} (h : filename ∉ d.disk.map DiskFile.name) :
    d.openFile filename = (d.disk.length, { d with disk := d.disk ++ [⟨filename, []⟩] }) := by
  refine if_neg ?_
  rw [List.findIdx_lt_length]
  rintro ⟨f, hf, hname⟩
  exact h (List.mem_map.mpr ⟨f, hf, of_decide_eq_true hname⟩)

/-- The state with a new file in use. -/
def rolled (sys : LogSystem) (d : LogDisk) : LogDisk where
  log := { d.log with
    lastRoll_ := sys.time d.readings
    lastFlush_ := sys.time d.readings
    startOfPeriod_ := sys.time d.readings / LogFile.kRollPerSecond_ * LogFile.kRollPerSecond_
    file_ := some ⟨d.disk.length, 0⟩ }
  disk := d.disk ++ [⟨LogFile.getLogFileName sys d.log.basename_ d.readings, []⟩]
  readings := d.readings + 1
  opened := d.opened ++
    [⟨LogFile.getLogFileName sys d.log.basename_ d.readings, sys.time d.readings⟩]

/-- In a second after that of the last opening, **`rollFile`** makes a new file. -/
lemma Kept.rollFile_new (hyears : ∀ i, FourDigitYear (sys.time i))
    (hfopen : ∀ i, sys.fopen i = true) (h : d.Kept lines)
    (hlater : d.log.lastRoll_ < sys.time d.readings) :
    d.rollFile sys = .ok (true, d.rolled sys) ∧ (d.rolled sys).Tidy sys lines := by
  have hnamed : LogFile.NamedAfter d.log.basename_
      ⟨LogFile.getLogFileName sys d.log.basename_ d.readings, sys.time d.readings⟩ := by
    refine ⟨hyears _, ProcessInfo.hostname (sys.gethostname d.readings) ++
      (ProcessInfo.pidToString (sys.getpid d.readings) ++ octets ".log".toList), ?_⟩
    dsimp only
    rw [LogFile.getLogFileName, List.append_assoc, List.append_assoc, List.append_assoc]
  have hfresh : LogFile.getLogFileName sys d.log.basename_ d.readings ∉
      d.disk.map DiskFile.name := by
    rw [h.created]
    intro hmem
    obtain ⟨p, hp, hname⟩ := List.mem_map.mp hmem
    have hsame := LogFile.name_inj (h.named p hp) hnamed hname
    have hearly := h.early p hp
    dsimp only at hsame
    omega
  have hopen := openFile_new (d := { d with readings := d.readings + 1 }) hfresh
  refine ⟨by
    simp only [rollFile, time, if_pos hlater, hfopen, check_true, ok_bind, hopen]
    rfl, ?_⟩
  obtain ⟨groups, hgroups, hcontents⟩ := h.holds
  exact
    { holds := by
        refine ⟨groups ++ [[]], ?_, ?_⟩
        · rw [List.flatten_concat, hgroups, List.append_nil]
        · rw [rolled, List.map_append, List.map_append, hcontents]
          rfl
      created := by
        rw [rolled, List.map_append, List.map_append, h.created]
        rfl
      increasing := by
        refine List.pairwise_append.mpr ⟨h.increasing, List.pairwise_singleton _ _, ?_⟩
        intro o ho p hp
        rw [List.mem_singleton.mp hp]
        exact (h.early o ho).trans_lt hlater
      named := by
        intro o ho
        rcases List.mem_append.mp ho with ho | ho
        · exact h.named o ho
        · rw [List.mem_singleton.mp ho]
          exact hnamed
      early := by
        intro o ho
        rcases List.mem_append.mp ho with ho | ho
        · exact (h.early o ho).trans hlater.le
        · rw [List.mem_singleton.mp ho]
          exact le_rfl
      last := ⟨_, List.getLast?_concat, rfl⟩
      read := ⟨d.readings, Nat.lt_succ_self _, rfl⟩
      current := ⟨d.disk.length, by rw [rolled, List.length_append, List.length_singleton], 0, rfl⟩ }

lemma rolled_bounded (sys : LogSystem) (d : LogDisk) : (d.rolled sys).Bounded sys d.readings :=
  ⟨⟨d.disk.length, 0⟩,
    ⟨LogFile.getLogFileName sys d.log.basename_ d.readings, sys.time d.readings⟩, rfl,
    List.getLast?_concat, Or.inr ⟨Nat.lt_succ_self _, rfl⟩⟩

/-- **`rollFile`** keeps the lines where they are, and leaves a file that was opened in the second
that it reads. -/
lemma Tidy.rollFile_spec (hmono : Monotone sys.time) (hyears : ∀ i, FourDigitYear (sys.time i))
    (hfopen : ∀ i, sys.fopen i = true) (h : d.Tidy sys lines) :
    ∃ b e, d.rollFile sys = .ok (b, e) ∧ e.Tidy sys lines ∧ e.Bounded sys d.readings := by
  by_cases hlater : d.log.lastRoll_ < sys.time d.readings
  · obtain ⟨hroll, htidy⟩ := h.toKept.rollFile_new hyears hfopen hlater
    exact ⟨true, d.rolled sys, hroll, htidy, rolled_bounded sys d⟩
  · obtain ⟨n, hlen, written, hcurrent⟩ := h.current
    obtain ⟨o, ho, hsecond⟩ := h.last
    obtain ⟨j, hj, hread⟩ := h.read
    have hnow : sys.time d.readings = d.log.lastRoll_ :=
      Nat.le_antisymm (Nat.le_of_not_lt hlater) (hread.trans_le (hmono hj.le))
    exact ⟨false, { d with readings := d.readings + 1 }, if_neg hlater,
      h.frame rfl rfl (Nat.le_succ _) rfl rfl rfl,
      ⟨n, written⟩, o, hcurrent, ho, Or.inr ⟨Nat.lt_succ_self _, hsecond.trans hnow.symm⟩⟩

/-- A file that is not too long is within the bound. -/
lemma Tidy.bounded_of_le (h : d.Tidy sys lines) {handle : LogHandle}
    (hfile : d.log.file_ = some handle) (hle : (handle.writtenBytes : ℤ) ≤ d.log.rollSize_)
    (since : ℕ) : d.Bounded sys since := by
  obtain ⟨o, ho, -⟩ := h.last
  exact ⟨handle, o, hfile, ho, Or.inl hle⟩

lemma Bounded.mono {since since' : ℕ} (h : d.Bounded sys since) (hle : since' ≤ since) :
    d.Bounded sys since' := by
  obtain ⟨handle, o, hfile, ho, hbound⟩ := h
  exact ⟨handle, o, hfile, ho, hbound.imp_right fun ⟨hread, hsecond⟩ =>
    ⟨hle.trans_lt hread, hsecond⟩⟩

/-- **Looking at the clock**, which may make a new file. -/
lemma Tidy.checkPeriod_spec (hmono : Monotone sys.time) (hyears : ∀ i, FourDigitYear (sys.time i))
    (hfopen : ∀ i, sys.fopen i = true) (h : d.Tidy sys lines) {handle : LogHandle}
    (hfile : d.log.file_ = some handle) (hle : (handle.writtenBytes : ℤ) ≤ d.log.rollSize_) :
    ∃ e, d.checkPeriod sys = .ok e ∧ e.Tidy sys lines ∧ e.Bounded sys d.readings := by
  have hread : { d with
      log := { d.log with count_ := 0 }, readings := d.readings + 1 }.Tidy sys lines :=
    h.frame rfl rfl (Nat.le_succ _) rfl rfl rfl
  by_cases hday : sys.time d.readings / LogFile.kRollPerSecond_ * LogFile.kRollPerSecond_ ≠
      d.log.startOfPeriod_
  · obtain ⟨b, e, hroll, htidy, hbounded⟩ := hread.rollFile_spec hmono hyears hfopen
    exact ⟨e, by rw [checkPeriod]; simp only [time, if_pos hday, hroll, ok_bind], htidy,
      hbounded.mono (Nat.le_succ _)⟩
  · by_cases hflush : d.log.flushInterval_ < (sys.time d.readings : ℤ) - d.log.lastFlush_
    · have hflushed := hread.frame (e := { d with
        log := { d.log with count_ := 0, lastFlush_ := sys.time d.readings },
        readings := d.readings + 1 }) rfl rfl le_rfl rfl rfl rfl
      exact ⟨_, (if_neg hday).trans (if_pos hflush), hflushed, hflushed.bounded_of_le hfile hle _⟩
    · exact ⟨_, (if_neg hday).trans (if_neg hflush), hread, hread.bounded_of_le hfile hle _⟩

/-- **`append_unlocked`** puts the line behind the others. -/
lemma Tidy.append_spec (hmono : Monotone sys.time) (hyears : ∀ i, FourDigitYear (sys.time i))
    (hfopen : ∀ i, sys.fopen i = true) (h : d.Tidy sys lines) {call : LogAppend}
    (hcall : ¬ AppendFile.RetryFails call.answers call.logline.length) :
    ∃ e, d.append_unlocked sys call = .ok e ∧ e.Tidy sys (lines ++ [call.logline]) ∧
      e.Bounded sys d.readings := by
  obtain ⟨n, -, written, hfile⟩ := h.current
  obtain ⟨k, e, hwrite, htidy, hfile', hreadings⟩ := write_spec h hfile hcall
  rw [← hreadings]
  simp only [append_unlocked, hfile, hwrite, ok_bind]
  split
  · obtain ⟨b, r, hroll, htidy', hbounded⟩ := htidy.rollFile_spec hmono hyears hfopen
    exact ⟨r, by rw [hroll, ok_bind], htidy', hbounded⟩
  next hle =>
    have hcounted := htidy.frame (e := { e with log := { e.log with count_ := e.log.count_ + 1 } })
      rfl rfl le_rfl rfl rfl rfl
    split
    · exact hcounted.checkPeriod_spec hmono hyears hfopen hfile' (Int.not_lt.mp hle)
    · exact ⟨_, rfl, hcounted, hcounted.bounded_of_le hfile' (Int.not_lt.mp hle) _⟩

/-- The first file. -/
lemma ctor_spec (hyears : ∀ i, FourDigitYear (sys.time i)) (hfopen : ∀ i, sys.fopen i = true)
    (hpos : 0 < sys.time 0) {basename : Bytes} (hbasename : 47 ∉ basename)
    (rollSize flushInterval checkEveryN : ℤ) :
    ∃ d, ctor sys basename rollSize flushInterval checkEveryN = .ok d ∧ d.Tidy sys [] := by
  have hempty : Kept
      { log :=
          { basename_ := basename
            rollSize_ := rollSize
            flushInterval_ := flushInterval
            checkEveryN_ := checkEveryN
            count_ := 0
            startOfPeriod_ := 0
            lastRoll_ := 0
            lastFlush_ := 0
            file_ := none }
        disk := []
        readings := 0
        opened := [] } [] :=
    { holds := ⟨[], rfl, rfl⟩
      created := rfl
      increasing := List.Pairwise.nil
      named := nofun
      early := nofun }
  obtain ⟨hroll, htidy⟩ := hempty.rollFile_new hyears hfopen hpos
  exact ⟨_, by rw [ctor, check_true hbasename, ok_bind, hroll, ok_bind], htidy⟩

/-- **Rolling partitions the log**: after any calls of `append`, with a clock that does not go back,
the files hold the lines in order and whole, and each file was made at a later second than the one
before and has a name of its own; and after the next call the one in use is not longer than
`rollSize_`, or it was opened in the current second. -/
theorem rolling_partitions (hmono : Monotone sys.time) (hpos : ∀ i, 0 < sys.time i)
    (hyears : ∀ i, FourDigitYear (sys.time i)) (hfopen : ∀ i, sys.fopen i = true)
    {basename : Bytes} (hbasename : 47 ∉ basename) (rollSize flushInterval checkEveryN : ℤ)
    {calls : List LogAppend}
    (hwrites : ∀ call ∈ calls, ¬ AppendFile.RetryFails call.answers call.logline.length) :
    ∃ d e, ctor sys basename rollSize flushInterval checkEveryN = .ok d ∧
      (machine sys).run d calls = .ok e ∧ e.Holds (calls.map LogAppend.logline) ∧
      e.FreshFiles ∧
      ∀ call, ¬ AppendFile.RetryFails call.answers call.logline.length →
        ∃ f, e.append_unlocked sys call = .ok f ∧ f.Bounded sys e.readings := by
  obtain ⟨d, hctor, htidy⟩ :=
    ctor_spec hyears hfopen (hpos 0) hbasename rollSize flushInterval checkEveryN
  obtain ⟨e, hrun, htidy'⟩ := (machine sys).run_refines
    (P := fun _ call => ¬ AppendFile.RetryFails call.answers call.logline.length)
    (R := fun d lines => d.Tidy sys lines)
    (fun d lines call h hcall => by
      obtain ⟨e, happend, htidy, -⟩ := h.append_spec hmono hyears hfopen hcall
      exact ⟨e, happend, htidy⟩) htidy
    ((machine sys).along_of_mem (fun call hcall _ => hwrites call hcall) d)
  have hlines : calls.foldl (fun lines call => lines ++ [call.logline]) [] =
      calls.map LogAppend.logline := by
    rw [List.foldl_append_eq_append, List.nil_append]
    exact List.map_eq_flatMap.symm
  rw [hlines] at htidy'
  refine ⟨d, e, hctor, hrun, htidy'.holds, htidy'.freshFiles, fun call hcall => ?_⟩
  obtain ⟨f, happend, -, hbounded⟩ := htidy'.append_spec hmono hyears hfopen hcall
  exact ⟨f, happend, hbounded⟩

/-- Eleven lines of five octets, a bound of twelve, and a clock that stands still after two
seconds. -/
theorem rolling_partitions_small :
    let sys : LogSystem :=
      ⟨fun i => 1700000000 + min i 2, fun _ => some (octets "host".toList), fun _ => 7,
        fun _ => true⟩
    let calls := List.replicate 11 ⟨octets "line ".toList, fun _ => 3⟩
    ∃ d e, ctor sys (octets "firey".toList) 12 3 2 = .ok d ∧
      (machine sys).run d calls = .ok e ∧ e.Holds (calls.map LogAppend.logline) ∧
      e.FreshFiles ∧
      ∀ call, ¬ AppendFile.RetryFails call.answers call.logline.length →
        ∃ f, e.append_unlocked sys call = .ok f ∧ f.Bounded sys e.readings := by
  intro sys calls
  refine rolling_partitions (fun i j h => Nat.add_le_add_left (min_le_min_right 2 h) _)
    (fun i => Nat.lt_add_right _ (by decide))
    (fun i => fourDigitYear_of_le ?_) (fun _ => rfl) (by decide) 12 3 2 ?_
  · dsimp only [sys]
    omega
  · rintro call hcall ⟨i, -, -, hzero⟩
    rw [List.eq_of_mem_replicate hcall] at hzero
    cases hzero

end LogDisk

end Firey
