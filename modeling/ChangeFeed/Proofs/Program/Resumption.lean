import ChangeFeed.Proofs.Program.Course
import ChangeFeed.Proofs.Session.StartCommand
import ChangeFeed.Proofs.Surroundings.Talks

/-!
Two runs of the program with one checkpoint file. Main statement: where the first has saved at its end,
the second starts its stream at the position that the last line of the first names, and this is never
position zero.
-/
namespace ChangeFeed

open Program Session

namespace Trial

variable {v : Volume} {s : Store} {o : Options}

/-- Where to start from is only looked up, and is what the file has if that counts. -/
theorem startOf_reads (s : Store) (o : Options) :
    Reads v (startOf (some s) o : Trial Pglogical.Message (Except Error Checkpoint)) fun result =>
      ∀ c : Checkpoint, o.fromCurrent = false → v.read s.path = .ok c.toFile →
        result = .ok c.asRead ∨ ∃ e, result = .error e := by
  unfold startOf
  dsimp only
  split
  · rename_i current
    refine .pure fun c counts => ?_
    rw [current] at counts
    cases counts
  · refine (load_reads s).bind fun loaded own => .pure fun c _ file => ?_
    obtain rfl | ⟨e, rfl⟩ := own c file
    · exact .inl rfl
    · exact .inr ⟨e, rfl⟩

/-- A run of the program with a checkpoint file, from its start to its end. -/
structure Course (path : String) where
  arguments : List String
  environment : List (String × String)
  options : Options
  settings : Settings
  start : Outside Pglogical.Message
  /-- What is left of the surroundings when the settings have been loaded. -/
  loaded : Outside Pglogical.Message
  exit : Exit
  finish : Outside Pglogical.Message
  begins : start.log = []
  asked : readArguments arguments = .run options
  configured : (Config.load options.config environment : Trial _ _) start = some (.ok settings, loaded)
  keeps : settings.checkpoint.file = some path
  ends : (execute arguments environment : Trial _ _) start = some (exit, finish)

namespace Course

variable {path : String} (course : Course path)

theorem checkSlot : checkSlot course.settings.source.slot = .ok () := by
  obtain ⟨-, -, checked⟩ := settings_reads _ _ _ _ _ rfl course.configured
  exact (SourceConfig.accepted_of_validate (checked _ rfl)).slot

theorem concludes (commands : String → Prop)
    (may : ∀ start u, (startOf (some ⟨path⟩) course.options : Trial _ _) course.loaded = some (.ok start, u) →
      MayStart commands course.settings.source.slot start) :
    ∃ written, Concludes commands (some ⟨path⟩) written course.finish := by
  obtain ⟨arguments, environment, options, settings, start, loaded, exit, finish, begins, asked, configured,
    keeps, ends⟩ := course
  dsimp only at may ⊢
  obtain ⟨log, -, -⟩ := settings_reads _ _ _ _ _ rfl configured
  unfold execute at ends
  rw [asked] at ends
  obtain ⟨result, u₁, configured', rest⟩ := bind_eq_some.mp ends
  obtain ⟨rfl, rfl⟩ := Prod.mk.inj (Option.some.inj (configured'.symm.trans configured))
  dsimp only at rest
  rw [keeps] at rest
  obtain ⟨began, u₂, looked, rest⟩ := bind_eq_some.mp rest
  obtain ⟨log', -, -⟩ := startOf_reads _ _ _ _ _ rfl looked
  have nothing : u₂.log = [] := (log'.trans log).trans begins
  cases began with
  | error e =>
    cases rest
    obtain ⟨tells, unflushed⟩ := tells_nothing nothing
    exact ⟨[], tells.concludes unflushed⟩
  | ok began => exact capture_inv (may began u₂ looked) nothing rest

/-- Where the program has saved at its end, its file reads as the checkpoint of its last line. -/
theorem saves {last : String} (lines : (printed course.finish.log).getLast? = some last)
    (saved : Saves ⟨path⟩ course.finish.log) :
    ∃ c : Checkpoint, c.lsn ≠ .zero ∧ position? last = some c.lsn.text ∧
      course.finish.volume.read path = .ok c.toFile := by
  obtain ⟨written, concludes⟩ := course.concludes (fun _ => True) fun _ _ _ =>
    ⟨trivial, fun _ => trivial⟩
  obtain ⟨c, latest, file⟩ := concludes.saved _ rfl saved
  obtain ⟨change, final, rfl⟩ := Option.map_eq_some_iff.mp latest
  rw [concludes.tells.lines, List.getLast?_map, final] at lines
  cases lines
  exact ⟨_, concludes.tells.advanced _ (List.mem_of_getLast? final), position?_line change, file⟩

/-- A program that finds a checkpoint past position zero says nothing but what resumes from there. -/
theorem resumes {c : Checkpoint} (past : c.lsn ≠ .zero) (counts : course.options.fromCurrent = false)
    (file : course.start.volume.read path = .ok c.toFile) :
    ∀ i bytes, .sent i bytes ∈ course.finish.log →
      Wire.Speech (Resuming course.settings.source.slot c.lsn) bytes := by
  obtain ⟨-, volume, -⟩ := settings_reads _ _ _ _ _ rfl course.configured
  obtain ⟨written, concludes⟩ := course.concludes (Resuming course.settings.source.slot c.lsn)
    fun start u looked => by
      obtain ⟨-, -, found⟩ := startOf_reads _ _ _ _ _ volume looked
      obtain same | ⟨e, failed⟩ := found c counts file
      · cases same
        exact mayStart_resuming (c := c.asRead) past
      · cases failed
  exact concludes.tells.speech

/-- The next run resumes exactly where the last line of one that has saved says it has come: it gives no
command but the question who the server is and the one for the stream from there. -/
theorem resumes_after {path : String} (first second : Course path) {last : String}
    (lines : (printed first.finish.log).getLast? = some last) (saved : Saves ⟨path⟩ first.finish.log)
    (unchanged : second.start.volume.read path = first.finish.volume.read path)
    (counts : second.options.fromCurrent = false) :
    ∃ l : Lsn, l ≠ .zero ∧ position? last = some l.text ∧
      ∀ i bytes, .sent i bytes ∈ second.finish.log →
        Wire.Speech
          (fun text => text = "IDENTIFY_SYSTEM" ∨ StreamsFrom second.settings.source.slot l text) bytes ∧
        ∀ text asked rest, Wire.Request.query text = .ok asked → bytes = asked ++ rest →
          "START_REPLICATION".toList <+: text.toList →
          text = startCommand second.settings.source.slot l ∧
            startOf? text = some (second.settings.source.slot, l) := by
  obtain ⟨c, past, named, file⟩ := first.saves lines saved
  have speech := second.resumes past counts (unchanged.trans file)
  refine ⟨c.lsn, past, named, fun i bytes sent => ⟨?_, ?_⟩⟩
  · refine (speech i bytes sent).mono fun text resuming => ?_
    rcases resuming with identify | rfl
    · exact .inl identify
    · exact .inr (streamsFrom_startCommand _ _)
  · intro text asked rest written begins starts
    obtain rfl := eq_startCommand second.checkSlot (speech i bytes sent) written begins starts
    exact ⟨rfl, startOf?_startCommand second.checkSlot c.lsn⟩

end Course

section Runs

/-- The checkpoint file that loaded settings name. -/
def checkpointFile (load : Except Error Settings × Outside Pglogical.Message) : Option String :=
  load.1.toOption.bind (·.checkpoint.file)

/-- A run of the program that has loaded its settings and has come to its end. -/
theorem exists_course {path : String} {arguments : List String} {o : Options}
    {start : Outside Pglogical.Message} {load : Except Error Settings × Outside Pglogical.Message}
    {run : Exit × Outside Pglogical.Message} (begins : start.log = []) (asked : readArguments arguments = .run o)
    (loads : (Config.load o.config [] : Trial _ _) start = some load)
    (keeps : checkpointFile load = some path)
    (ends : (execute arguments [] : Trial _ _) start = some run) :
    ∃ course : Course path, course.start = start ∧ course.options = o ∧ course.finish = run.2 := by
  obtain ⟨result, loaded⟩ := load
  cases result with
  | error => cases keeps
  | ok settings =>
    exact ⟨⟨arguments, [], o, settings, start, loaded, run.1, run.2, begins, asked, loads, keeps, ends⟩,
      rfl, rfl, rfl⟩

def Note.isFlush : Note Pglogical.Message → Bool
  | .flushed (.ok _) => true
  | _ => false

def Note.performs (step : FileStep) : Note Pglogical.Message → Bool
  | .filed s (.ok _) => s = step
  | _ => false

def Note.gives (command : String) : Note Pglogical.Message → Bool
  | .sent _ bytes => Wire.Request.query command = .ok bytes
  | _ => false

theorem saves_of_any {log : List (Note Pglogical.Message)}
    (any : (log.dropWhile (!·.isFlush)).any (Note.performs (.rename s.draft s.path)) = true) : Saves s log := by
  have whole := List.takeWhile_append_dropWhile (p := (!·.isFlush)) (l := log)
  cases rest : log.dropWhile (!·.isFlush) with
  | nil =>
    rw [rest] at any
    cases any
  | cons n after =>
    have flush : n.isFlush = true := by
      have head := List.head?_dropWhile_not (!·.isFlush) log
      rw [rest] at head
      simpa using head
    rw [rest] at any whole
    cases n with
    | flushed outcome =>
      cases outcome with
      | error => cases flush
      | ok =>
        refine ⟨_, after, whole.symm, ?_⟩
        obtain ⟨n, member, performs⟩ := List.any_eq_true.mp any
        cases n with
        | filed step outcome =>
          cases outcome with
          | error => cases performs
          | ok =>
            cases of_decide_eq_true performs
            exact (List.mem_cons.mp member).resolve_left nofun
        | _ => cases performs
    | _ => cases flush

/-- The top folder with the settings of a program that keeps its checkpoint in the file `f`. -/
def settled : Volume := ⟨[(["c.json"], .file (Bytes.ofString <|
  "\x7b\"source\":\x7b\"setup_conn_str\":\"host=a\",\"repl_conn_str\":\"host=a user=b\"," ++
    "\"repl_slot\":\"s\"\x7d,\"checkpoint\":\x7b\"file\":\"f\"\x7d\x7d"))]⟩

def loading (v : Volume) : Option (Except Error Settings × Outside Pglogical.Message) :=
  (Config.load "c.json" [] : Trial _ _) (obliging v)

def running (v : Volume) : Option (Exit × Outside Pglogical.Message) :=
  (execute ["-c", "c.json"] [] : Trial _ _) (obliging v)

/-- Where the second run has to start. -/
def hundredAndOne : Lsn := ⟨101, by decide⟩

/-- What the settings file in the top folder gives. -/
def settledSettings : Settings := ⟨⟨"host=a", "host=a user=b", "s", false, 5, 100, 30⟩, ⟨some "f", 10⟩⟩

/-- What is left of the surroundings when the settings have been loaded. -/
def onceLoaded (v : Volume) : Outside Pglogical.Message :=
  { obliging v with replies := (obliging v).replies.tail }

theorem settings_of_file :
    (settled.read "c.json").toOption.bind (fun bytes =>
      (Config.Format.json.read? (Text.Utf8.lossyString
        (if bytes.take 3 = [0xEF, 0xBB, 0xBF] then bytes.drop 3 else bytes))).map (Config.assemble · [])) =
      some (.ok settledSettings) := by
  decide +kernel

theorem loading_eq {v : Volume} (same : v.read "c.json" = settled.read "c.json") :
    loading v = some (.ok settledSettings, onceLoaded v) := by
  obtain ⟨bytes, file, given⟩ := Option.bind_eq_some_iff.mp settings_of_file
  obtain ⟨entries, read, given⟩ := Option.map_eq_some_iff.mp given
  have file : settled.read "c.json" = .ok bytes := by
    cases found : settled.read "c.json" <;> rw [found] at file <;> cases file
    rfl
  have format : Config.formatOf? "c.json" = some .json := by decide +kernel
  generalize shown : Text.Utf8.lossyString
    (if bytes.take 3 = [0xEF, 0xBB, 0xBF] then bytes.drop 3 else bytes) = text at read
  have look : (FileSystem.read "c.json" : Trial Pglogical.Message _) (obliging v) =
      some (.ok bytes, onceLoaded v) := by
    rw [← file, ← same]
    rfl
  have there : (Config.readText? "c.json" : Trial Pglogical.Message _) (obliging v) =
      some (some text, onceLoaded v) := bind_eq_some.mpr ⟨_, _, look, by rw [← shown]; rfl⟩
  have opened : (Config.openFile "c.json" : Trial Pglogical.Message _) (obliging v) =
      some (.ok (.json, text), onceLoaded v) :=
    bind_eq_some.mpr ⟨_, _, there, by dsimp only; rw [format]; rfl⟩
  refine bind_eq_some.mpr ⟨_, _, opened, ?_⟩
  dsimp only
  rw [read]
  exact congrArg (fun result => some (result, onceLoaded v)) given

/-- A run once its settings are loaded. -/
theorem running_eq {v : Volume} (same : v.read "c.json" = settled.read "c.json") :
    running v = (do
      match ← startOf (some ⟨"f"⟩) ⟨"c.json", false, false, false⟩ with
      | .error e => return .failure (.plain e)
      | .ok start => capture settledSettings (some ⟨"f"⟩) start : Trial _ Exit) (onceLoaded v) := by
  have asked : readArguments ["-c", "c.json"] = .run ⟨"c.json", false, false, false⟩ := by decide +kernel
  unfold running execute
  rw [asked]
  exact (congrArg (Option.bind · _) (loading_eq same)).trans rfl

/-- The top folder after a first run. -/
def leftBehind : Volume := ⟨(["f"], .file (Bytes.ofString
  "\x7b\n  \"lsn\": 101,\n  \"time\": \"1970-01-01T00:00:00Z\"\n\x7d")) :: settled.entries⟩

theorem leftBehind_settings : leftBehind.read "c.json" = settled.read "c.json" := by decide +kernel

/-- What a first run leaves, prints and saves, and what a second run in what it leaves has said. -/
theorem runs_eq :
    (running settled).map (fun run =>
        (run.2.volume, (printed run.2.log).getLast?.bind position?,
          (run.2.log.dropWhile (!·.isFlush)).any (Note.performs (.rename (Store.draft ⟨"f"⟩) "f")))) =
      some (leftBehind, some hundredAndOne.text, true) ∧
    (running leftBehind).map (·.2.log.any (Note.gives (startCommand "s" hundredAndOne))) = some true := by
  -- A conversation is no recursion that can be worked out, and a round is done before the next begins.
  have round (n : Nat) (p : Forwarding Nat Nat) := Forwarding.run_succ (m := Trial Pglogical.Message) n p
  have first := round 4611686018427387903
  have second := round 4611686018427387902
  have third := round 4611686018427387901
  have rounds : patience = 4611686018427387903 + 1 := by decide +kernel
  simp only [Nat.reduceAdd] at first second third rounds
  rw [running_eq rfl, running_eq leftBehind_settings]
  simp only [Program.capture, Source.start, Source.openStream, Connections.openReplication,
    Connection.connect, Connection.login, Connection.call, Connection.start, Connection.identify,
    Connection.query, Connection.command, Connection.stream, run_eq_talkOut, Program.forward, rounds,
    first, second, third, Forwarding.round, Source.settle, Source.stop]
  rw [transport_eq_talking]
  exact ⟨by decide +kernel, by decide +kernel⟩

/-- Two runs, one after the other, with what they print, save and say. -/
theorem two_runs :
    ((loading settled).bind fun load => (running settled).bind fun run =>
      (loading run.2.volume).bind fun load' => (running run.2.volume).map fun run' =>
        (checkpointFile load, checkpointFile load', (printed run.2.log).getLast?.bind position?,
          (run.2.log.dropWhile (!·.isFlush)).any (Note.performs (.rename (Store.draft ⟨"f"⟩) "f")),
          run'.2.log.any (Note.gives (startCommand "s" hundredAndOne)))) =
      some (some "f", some "f", some hundredAndOne.text, true, true) := by
  obtain ⟨run, runs, told⟩ := Option.map_eq_some_iff.mp runs_eq.1
  obtain ⟨run', runs', gives⟩ := Option.map_eq_some_iff.mp runs_eq.2
  obtain ⟨volume, lines, saves⟩ : run.2.volume = leftBehind ∧ _ := by simpa only [Prod.mk.injEq] using told
  rw [loading_eq rfl, Option.bind_some, runs, Option.bind_some, volume, loading_eq leftBehind_settings,
    Option.bind_some, runs', Option.map_some, lines, saves, gives]
  rfl

theorem resumes_after_first_line : ∃ first second : Course "f", ∃ last,
    (printed first.finish.log).getLast? = some last ∧ Saves ⟨"f"⟩ first.finish.log ∧
    second.start.volume.read "f" = first.finish.volume.read "f" ∧ second.options.fromCurrent = false ∧
    position? last = some hundredAndOne.text ∧
    (∃ i said, Wire.Request.query (startCommand "s" hundredAndOne) = .ok said ∧
      .sent i said ∈ second.finish.log) ∧
    ∃ l : Lsn, l ≠ .zero ∧ position? last = some l.text ∧ ∀ i bytes, .sent i bytes ∈ second.finish.log →
      Wire.Speech
        (fun text => text = "IDENTIFY_SYSTEM" ∨ StreamsFrom second.settings.source.slot l text) bytes ∧
      ∀ text asked rest, Wire.Request.query text = .ok asked → bytes = asked ++ rest →
        "START_REPLICATION".toList <+: text.toList →
        text = startCommand second.settings.source.slot l ∧
          startOf? text = some (second.settings.source.slot, l) := by
  obtain ⟨load, loads, worked⟩ := Option.bind_eq_some_iff.mp two_runs
  obtain ⟨run, runs, worked⟩ := Option.bind_eq_some_iff.mp worked
  obtain ⟨load', loads', worked⟩ := Option.bind_eq_some_iff.mp worked
  obtain ⟨run', runs', worked⟩ := Option.map_eq_some_iff.mp worked
  simp only [Prod.mk.injEq] at worked
  obtain ⟨file, file', lines, saves, gives⟩ := worked
  have asked : readArguments ["-c", "c.json"] = .run ⟨"c.json", false, false, false⟩ := by decide +kernel
  obtain ⟨first, -, -, finish⟩ := exists_course rfl asked loads file runs
  obtain ⟨second, start, options, finish'⟩ := exists_course rfl asked loads' file' runs'
  obtain ⟨last, line, named⟩ := Option.bind_eq_some_iff.mp lines
  rw [← finish] at line saves
  have saved : Saves ⟨"f"⟩ first.finish.log := saves_of_any saves
  have unchanged : second.start.volume.read "f" = first.finish.volume.read "f" := by rw [start, finish]; rfl
  have counts : second.options.fromCurrent = false := by rw [options]
  have given : ∃ i said, Wire.Request.query (startCommand "s" hundredAndOne) = .ok said ∧
      .sent i said ∈ second.finish.log := by
    obtain ⟨n, member, gives⟩ := List.any_eq_true.mp gives
    cases n with
    | sent i said => exact ⟨i, said, of_decide_eq_true gives, finish' ▸ member⟩
    | _ => cases gives
  exact ⟨first, second, last, line, saved, unchanged, counts, named, given,
    first.resumes_after second line saved unchanged counts⟩

end Runs

end Trial

end ChangeFeed
