import CallChart.CommandLine
import CallChart.Proofs.Files.NewFolders

/-!
# What commands do to files

A command that reads leaves the disk as it is, and so does one that fails
before it writes. A command that writes makes folders and writes one file, the
one that its path leads to once the folders are made
(`CommandLine.run_spares_files`).

A configuration that stands there is to be written over by force only. Whether
it stands there is asked before the folders are made, and a path that goes
back through a folder still to be made leads nowhere at that time. Such a
configuration is overlooked (`Workbench.Overlooks`), and lost. A path that does
not go back overlooks none (`Workbench.not_overlooks`).
-/

namespace CallChart

open Files

namespace Files.Disk

variable {disk disk' made : Disk} {path : Path} {content : ByteArray} {place : Place}

/-- Files stand on the second disk as they do on the first, but for those at some places. Places are
what is compared and not paths, of which many may lead to one file. -/
def KeepsFiles (before after : Disk) (except : Place → Prop) : Prop :=
  ∀ place content, ¬ except place → before.root.at? place = some (.file content) →
    after.root.at? place = some (.file content)

/-- A disk that grows keeps the files that are not written. -/
theorem keepsFiles_of_grows {written : Place → Prop} (grows : Grows written disk.root disk'.root) :
    disk.KeepsFiles disk' written := by
  intro place content unwritten found
  rw [← Entry.kindAt?_eq_file_iff] at found ⊢
  exact grows.kept found (.inr unwritten)

/-- Where only folders are made, all files are kept. -/
theorem OnlyFolders.keepsFiles (folders : OnlyFolders disk disk') (except : Place → Prop) :
    disk.KeepsFiles disk' except :=
  keepsFiles_of_grows (folders.grows.mono fun _ => False.elim)

/-- **Where folders are made and a file is written**, the other files are kept, and the path leads
to what is written. -/
theorem keepsFiles_of_write (folders : OnlyFolders disk made)
    (done : made.write path content = .ok disk') :
    disk.KeepsFiles disk' (disk'.find path = .ok ·) ∧
      ∃ place, disk'.find path = .ok place ∧ disk'.root.at? place = some (.file content) := by
  obtain ⟨place, _, _, grows, now, found⟩ := write_spec done
  refine ⟨keepsFiles_of_grows (.trans (folders.grows.mono fun _ => False.elim)
    (grows.mono ?_)), place, found, now⟩
  rintro _ rfl
  exact found

end Files.Disk

namespace Workbench

variable {disk disk' made : Disk} {folder path : Path} {text : String}

/-! ## Drawing -/

theorem onlyFolders_createParent {result : Except Failure Unit}
    (done : createParent disk path = (result, made)) : disk.OnlyFolders made := by
  unfold createParent at done
  split at done
  · obtain ⟨-, rfl⟩ := Prod.mk.inj done
    exact .refl disk
  · split at done <;> next hmade =>
      obtain ⟨-, rfl⟩ := Prod.mk.inj done
      exact Disk.onlyFolders_createFolders hmade

/-- **What writing a text does.** Other files are kept, and where it is done the path leads to the
text. -/
theorem writeText_spec {result : Except Failure Unit}
    (done : writeText disk path text = (result, disk')) :
    disk.KeepsFiles disk' (disk'.find path = .ok ·) ∧
      (result = .ok () → ∃ place, disk'.find path = .ok place ∧
        disk'.root.at? place = some (.file text.toUTF8)) := by
  unfold writeText at done
  split at done
  case h_1 hmade =>
    obtain ⟨rfl, rfl⟩ := Prod.mk.inj done
    exact ⟨(onlyFolders_createParent hmade).keepsFiles _, nofun⟩
  case h_2 hmade =>
    have folders := onlyFolders_createParent hmade
    split at done
    case h_1 hwrite =>
      obtain ⟨rfl, rfl⟩ := Prod.mk.inj done
      obtain ⟨kept, written⟩ := Disk.keepsFiles_of_write folders hwrite
      exact ⟨kept, fun _ => written⟩
    case h_2 =>
      obtain ⟨rfl, rfl⟩ := Prod.mk.inj done
      exact ⟨folders.keepsFiles _, nofun⟩

section Draw

variable {workbench : Workbench} {source : Path} {function : String} {output : Option Path}
  {format : Option ChartFormat}

/-- Nothing is drawn of a function that cannot be traced. -/
theorem draw_of_trace_eq_error {failure : Failure}
    (failed : workbench.trace disk (workbench.index disk) source function = .error failure) :
    workbench.draw disk source function output format = (.error failure, disk) := by
  simp only [draw, drawing, failed, bind, Except.bind]

/-- **What drawing does** where the function is traced. -/
theorem draw_spec {trace : Trace} {result : Except Failure Path}
    (traced : workbench.trace disk (workbench.index disk) source function = .ok trace)
    (done : workbench.draw disk source function output format = (result, disk')) :
    let format := format.getD workbench.config.format
    let path := output.getD (workbench.defaultOutput trace function format)
    disk.KeepsFiles disk' (disk'.find path = .ok ·) ∧
      (result.isOk = true → ∃ place, disk'.find path = .ok place ∧
        disk'.root.at? place = some (.file (format.render trace).toUTF8)) := by
  simp only [draw, drawing, traced, bind, Except.bind, pure, Except.pure] at done
  split at done
  case h_1 hwritten =>
    obtain ⟨rfl, rfl⟩ := Prod.mk.inj done
    obtain ⟨kept, written⟩ := writeText_spec hwritten
    exact ⟨kept, fun _ => written rfl⟩
  case h_2 hwritten =>
    obtain ⟨rfl, rfl⟩ := Prod.mk.inj done
    exact ⟨(writeText_spec hwritten).1, nofun⟩

end Draw

/-! ## Setting up -/

/-- **A configuration is overlooked** where its path leads to nothing, but to a file that is not the
default configuration once the folders are made. -/
def Overlooks (disk : Disk) (folder : Path) : Prop :=
  disk.holds (configPath folder) = false ∧ ∃ made content text,
    disk.createFolders folder = (.ok (), made) ∧
      made.entry (configPath folder) = .ok (.file content) ∧
      ({} : Config).render = .ok text ∧ content ≠ text.toUTF8

/-- **A path that does not go back overlooks nothing.** -/
theorem not_overlooks (forth : ".." ∉ piecesOf folder.text) : ¬ Overlooks disk folder := by
  rintro ⟨missing, made, content, text, hmade, stands, _⟩
  have holds := Disk.holds_iff.mpr ⟨_, stands⟩
  rcases Disk.unchanged_or_empty forth hmade with rfl | empty
  · rw [missing] at holds
    cases holds
  · have named : folder.text ≠ "" := by
      intro unnamed
      obtain ⟨_, hplace, _⟩ := Disk.entry_eq_ok_iff.mp empty
      have checked := (Disk.find_eq_ok_iff.mp hplace).1
      rw [Disk.checkPath, unnamed] at checked
      cases checked
    have goes : Path.GoesOn folder (configPath folder) _ := Path.goesOn_join named (by decide)
    have counts : ¬ Path.Stays "calltrail.toml".toList := by
      unfold Path.Stays
      decide
    rw [Disk.holds_eq_false_of_goesOn goes counts (by decide) empty] at holds
    cases holds

/-- Saving is rendering and then writing. -/
theorem save_eq_ok_iff {config : Config} :
    config.save disk path = .ok disk' ↔
      ∃ text, config.render = .ok text ∧ disk.write path text.toUTF8 = .ok disk' := by
  rw [Config.save, bind_eq_ok_iff]
  simp only [mapError_eq_ok_iff]

/-- **What setting up does.** Folders are made at most, or the default configuration is written too,
by force or where none was seen. -/
theorem setUp_cases {target : Option Path} {force : Bool} {result : Except Failure Path}
    (done : setUp disk target force = (result, disk')) :
    disk.OnlyFolders disk' ∨ ∃ made text, (force = true ∨
        disk.holds (configPath (target.getD ⟨"."⟩)) = false) ∧
      disk.createFolders (target.getD ⟨"."⟩) = (.ok (), made) ∧ ({} : Config).render = .ok text ∧
      made.write (configPath (target.getD ⟨"."⟩)) text.toUTF8 = .ok disk' := by
  simp only [setUp] at done
  split at done
  case isTrue =>
    obtain ⟨-, rfl⟩ := Prod.mk.inj done
    exact .inl (.refl disk)
  case isFalse free =>
  split at done
  case h_1 hmade =>
    obtain ⟨-, rfl⟩ := Prod.mk.inj done
    exact .inl (Disk.onlyFolders_createFolders hmade)
  case h_2 made hmade =>
  split at done
  case h_2 =>
    obtain ⟨-, rfl⟩ := Prod.mk.inj done
    exact .inl (Disk.onlyFolders_createFolders hmade)
  case h_1 hsave =>
    obtain ⟨-, rfl⟩ := Prod.mk.inj done
    obtain ⟨text, hrender, hwrite⟩ := save_eq_ok_iff.mp hsave
    refine .inr ⟨made, text, ?_, hmade, hrender, hwrite⟩
    cases force with
    | true => exact .inl rfl
    | false => exact .inr (by simpa using free)

/-- Setting up keeps the files that the path of the configuration does not lead to. -/
theorem keepsFiles_setUp {target : Option Path} {force : Bool} {result : Except Failure Path}
    (done : setUp disk target force = (result, disk')) :
    disk.KeepsFiles disk' (disk'.find (configPath (target.getD ⟨"."⟩)) = .ok ·) := by
  rcases setUp_cases done with folders | ⟨made, text, -, hmade, -, hwrite⟩
  · exact folders.keepsFiles _
  · exact (Disk.keepsFiles_of_write (Disk.onlyFolders_createFolders hmade) hwrite).1

/-- An overlooked configuration is lost. -/
theorem not_keepsFiles_of_overlooks {target : Option Path} {result : Except Failure Path}
    (overlooks : Overlooks disk (target.getD ⟨"."⟩))
    (done : setUp disk target false = (result, disk')) :
    ¬ disk.KeepsFiles disk' fun _ => False := by
  obtain ⟨missing, made, content, text, hmade, stands, hrender, other⟩ := overlooks
  have folders := Disk.onlyFolders_createFolders hmade
  obtain ⟨place, hplace, found⟩ := Disk.entry_eq_ok_iff.mp stands
  have file := Entry.kindAt?_eq_file_iff.mpr found
  have no_folder : made.root.kindAt? place ≠ some .folder := by
    rw [file]
    nofun
  -- The file stood there before the folders were made.
  have before := folders.grows.file_of_unwritten file id
  have hfile := Disk.filePlace_of_find hplace no_folder
  have hwrite : made.write (configPath (target.getD ⟨"."⟩)) text.toUTF8 =
      .ok (made.put place (.file text.toUTF8)) := bind_eq_ok_iff.mpr ⟨place, hfile, rfl⟩
  simp only [setUp, missing, Bool.false_and, Bool.false_eq_true, if_false, hmade,
    save_eq_ok_iff.mpr ⟨text, hrender, hwrite⟩] at done
  obtain ⟨-, rfl⟩ := Prod.mk.inj done
  intro kept
  have same := kept place content id (Entry.kindAt?_eq_file_iff.mp before)
  have now := Disk.at?_put_of_filePlace hfile text.toUTF8
  rw [Disk.put] at same
  rw [now, Option.some.injEq, Entry.file.injEq] at same
  exact other same.symm

/-- **Setting up without force keeps all files exactly where it overlooks none.** -/
theorem keepsFiles_setUp_iff {target : Option Path} {result : Except Failure Path}
    (done : setUp disk target false = (result, disk')) :
    disk.KeepsFiles disk' (fun _ => False) ↔ ¬ Overlooks disk (target.getD ⟨"."⟩) := by
  refine ⟨fun kept overlooks => not_keepsFiles_of_overlooks overlooks done kept, fun seen => ?_⟩
  rcases setUp_cases done with folders | ⟨made, text, unseen, hmade, hrender, hwrite⟩
  · exact folders.keepsFiles _
  have missing := unseen.resolve_left Bool.false_ne_true
  have folders := Disk.onlyFolders_createFolders hmade
  obtain ⟨place, hfile, _, grows, now, _⟩ := Disk.write_spec hwrite
  intro other content _ found
  have inside := folders.keepsFiles (fun _ => False) other content id found
  by_cases same : other = place
  · subst same
    obtain ⟨checked, leads, _⟩ := Disk.filePlace_eq_ok_iff.mp hfile
    have stands := Disk.entry_eq_ok_iff.mpr
      ⟨other, Disk.find_eq_ok_iff.mpr ⟨checked, leads.asAny⟩, inside⟩
    have default : content = text.toUTF8 := by
      by_contra differs
      exact seen ⟨missing, made, content, text, hmade, stands, hrender, differs⟩
    rw [default]
    exact now
  · exact Disk.keepsFiles_of_grows grows other content same inside

end Workbench

namespace CommandLine

variable {disk : Disk} {arguments : List String} {request : Request} {workbench : Workbench}

/-! ## Running -/

/-- **What a command may do to the files of a disk**, and has done if it is done. Listing changes
nothing, and neither does drawing where the function cannot be traced. Drawing writes the file that
its path leads to, and setting up writes the configuration. Without force that damages a file only
where one is overlooked. -/
def Spares (workbench : Workbench) (before after : Disk) (done : Prop) : Command → Prop
  | .index _ => after = before
  | .generate source function output format =>
    match workbench.trace before (workbench.index before) source function with
    | .error _ => after = before
    | .ok trace =>
      let format := format.getD workbench.config.format
      let path := output.getD (workbench.defaultOutput trace function format)
      before.KeepsFiles after (after.find path = .ok ·) ∧
        (done → ∃ place, after.find path = .ok place ∧
          after.root.at? place = some (.file (format.render trace).toUTF8))
  | .init target force =>
    let folder := target.getD ⟨"."⟩
    before.KeepsFiles after (after.find (Workbench.configPath folder) = .ok ·) ∧
      (force = false →
        (before.KeepsFiles after (fun _ => False) ↔ ¬ Workbench.Overlooks before folder) ∧
        (".." ∉ piecesOf folder.text → before.KeepsFiles after fun _ => False))

/-- Every command spares files when it is carried out. -/
theorem spares_carryOut (workbench : Workbench) (disk : Disk) (command : Command) :
    Spares workbench disk (carryOut workbench disk command).2
      ((carryOut workbench disk command).1.isOk = true) command := by
  cases command with
  | index json => rfl
  | generate source function output format =>
    rw [Spares]
    cases traced : workbench.trace disk (workbench.index disk) source function with
    | error failure => simp only [carryOut, Workbench.draw_of_trace_eq_error traced]
    | ok trace =>
      rcases drawn : workbench.draw disk source function output format with ⟨result, after⟩
      have spec := Workbench.draw_spec traced drawn
      cases result <;> (simp only [carryOut, drawn]; exact spec)
  | init target force =>
    rcases hset : Workbench.setUp disk target force with ⟨result, after⟩
    have left : (carryOut workbench disk (.init target force)).2 = after := by
      cases result <;> simp only [carryOut, hset]
    rw [Spares, left]
    refine ⟨Workbench.keepsFiles_setUp hset, ?_⟩
    rintro rfl
    have exactly := Workbench.keepsFiles_setUp_iff hset
    exact ⟨exactly, fun forth => exactly.mpr (Workbench.not_overlooks forth)⟩

/-- A run with a workbench leaves the disk of its command, and ends well if that does. -/
theorem run_of_workbench (asked : read arguments = .ok request)
    (ready : Workbench.ofDisk disk request.config none = .ok workbench) :
    (run disk arguments).disk = (carryOut workbench disk request.command).2 ∧
      ((run disk arguments).exit = 0 ↔
        (carryOut workbench disk request.command).1.isOk = true) := by
  simp only [run, asked, perform, ready]
  split
  · next done =>
    rw [done]
    exact ⟨rfl, fun _ => rfl, fun _ => rfl⟩
  · next done =>
    rw [done]
    exact ⟨rfl, nofun, nofun⟩

/-- **No command damages files that it should not**, but for a configuration that it overlooks. A
run that asks for no command, or has no workbench, leaves the disk as it is. -/
theorem run_spares_files (disk : Disk) (arguments : List String) :
    match read arguments with
    | .error _ => (run disk arguments).disk = disk
    | .ok request =>
      match Workbench.ofDisk disk request.config none with
      | .error _ => (run disk arguments).disk = disk
      | .ok workbench =>
        Spares workbench disk (run disk arguments).disk ((run disk arguments).exit = 0)
          request.command := by
  cases asked : read arguments with
  | error stop =>
    rw [run, asked]
    cases stop <;> rfl
  | ok request =>
    dsimp only
    cases ready : Workbench.ofDisk disk request.config none with
    | error failure => simp only [run, asked, perform, ready]
    | ok workbench =>
      obtain ⟨left, well⟩ := run_of_workbench asked ready
      simp only [left, well]
      exact spares_carryOut workbench disk request.command

/-- A configuration is overlooked, and lost, where the path to it goes back through a folder still
to be made. -/
theorem run_spares_files_overlooked :
    let mine := Entry.file "# mine\n".toUTF8
    let disk : Disk := { root := .folder [("sub", .folder [("calltrail.toml", mine)])], here := [] }
    let outcome := run disk ["init", "--path", "gone/../sub"]
    outcome.exit = 0 ∧ Workbench.Overlooks disk ⟨"gone/../sub"⟩ ∧
      ¬ disk.KeepsFiles outcome.disk fun _ => False := by
  intro mine disk outcome
  have lost : outcome.disk.root.kindAt? ["sub", "calltrail.toml"] ≠
      some (.file "# mine\n".toUTF8) := by decide +kernel
  have damaged : ¬ disk.KeepsFiles outcome.disk fun _ => False := fun kept =>
    lost (Entry.kindAt?_eq_file_iff.mpr (kept _ _ id rfl))
  refine ⟨by decide +kernel, ?_, damaged⟩
  have asked : read ["init", "--path", "gone/../sub"] =
      .ok ⟨none, false, .init (some ⟨"gone/../sub"⟩) false⟩ := rfl
  have spares := run_spares_files disk ["init", "--path", "gone/../sub"]
  rw [asked] at spares
  dsimp only at spares
  have ready : (Workbench.ofDisk disk none none).isOk = true := by decide +kernel
  cases found : Workbench.ofDisk disk none none with
  | error failure =>
    rw [found] at ready
    cases ready
  | ok workbench =>
    rw [found] at spares
    exact not_not.mp fun seen => damaged ((spares.2 rfl).1.mpr seen)

end CommandLine

end CallChart
