import Mathlib
import OutOfOrder.Command.Run
import OutOfOrder.Directory

/-!
# The files that a command looks at

A command looks at the files that it names and at no others (`Command.answer_congr`). So it may be
carried out with nothing at hand but what these gave when they were read (`Command.answer_among`).

A path gives a text just if it leads to a file of the directory that it starts in, through names
that all stay there (`Directory.read_eq_ok_iff`): no way leads back from above. With this, what a
command answers in a directory is a matter of the files whose names stand in its paths
(`Command.answer_directory`).
-/

namespace OutOfOrder

/-! ## Commands -/

namespace Command

variable {files files' : Files}

theorem load_congr {program : String} {options : Options}
    (h : ∀ path ∈ program :: options.config.toList, files path = files' path) :
    load files program options = load files' program options := by
  have hprogram := h program List.mem_cons_self
  unfold load
  cases hc : options.config with
  | none => simp only [Program.ofFile, hprogram]
  | some path =>
    have hconfig := h path (by simp [hc])
    simp only [loadConfig, Program.ofFile, hprogram, hconfig]

/-- A command answers alike where the files that it names are alike. -/
theorem answer_congr {arguments : List String}
    (h : ∀ path ∈ paths arguments, files path = files' path) :
    answer files arguments = answer files' arguments := by
  unfold paths at h
  unfold answer
  cases hr : read arguments with
  | error e => rfl
  | ok command =>
    rw [hr] at h
    cases command with
    | run program options => simp only [execute, load_congr h]
    | demo options => rfl
    | version => rfl
    | help => rfl

/-- It is enough to read the files that a command names, each of them once and beforehand. -/
theorem answer_among (files : Files) (arguments : List String) :
    answer (Files.among ((paths arguments).map fun path => (path, files path))) arguments =
      answer files arguments := by
  refine answer_congr fun path hp => ?_
  rw [Files.among, List.lookup_graph files hp, Option.getD_some]

end Command

/-! ## Directories -/

namespace Directory

variable {d d' : Directory} {name text : String} {place : Place}

/-- The name is that of a file that can be there: it does not stand for a directory, and is not too
long. -/
structure IsName (name : String) : Prop where
  ne_empty : name ≠ ""
  ne_dot : name ≠ "."
  ne_dots : name ≠ ".."
  short : name.utf8ByteSize ≤ maxName

/-- A name leads from the directory to one of its files just if it is the name of that file. -/
theorem follow_here_eq_file_iff :
    d.follow name .here = .ok (.file text) ↔ IsName name ∧ d.files.lookup name = some text := by
  simp only [follow]
  split_ifs with hstay hup hlong
  · refine iff_of_false nofun fun h => ?_
    exact hstay.elim h.1.ne_empty h.1.ne_dot
  · exact iff_of_false nofun fun h => h.1.ne_dots hup
  · exact iff_of_false nofun fun h => absurd h.1.short (Nat.not_le.2 hlong)
  · rw [not_or] at hstay
    have hname : IsName name := ⟨hstay.1, hstay.2, hup, Nat.not_lt.1 hlong⟩
    cases d.files.lookup name <;> simp [hname]

/-- From above, no name leads back. -/
theorem follow_above (h : d.follow name .above = .ok place) : place = .above := by
  simp only [follow] at h
  split_ifs at h <;> cases h <;> rfl

theorem follow_here_eq_here_iff :
    d.follow name .here = .ok .here ↔ name = "" ∨ name = "." := by
  simp only [follow]
  split_ifs with hstay hup hlong
  · exact iff_of_true rfl hstay
  · exact iff_of_false nofun hstay
  · exact iff_of_false nofun hstay
  · refine iff_of_false ?_ hstay
    cases d.files.lookup name <;> nofun

/-- Where some names lead, one after the other. -/
def followAll (d : Directory) (names : List String) (place : Place) : Except FileError Place :=
  names.foldlM (fun place name => d.follow name place) place

theorem followAll_cons (names : List String) :
    d.followAll (name :: names) place =
      d.follow name place >>= fun place => d.followAll names place := rfl

theorem followAll_above_ne_file (names : List String) :
    d.followAll names .above ≠ .ok (.file text) := by
  induction names with
  | nil => nofun
  | cons name names ih =>
    rw [followAll_cons]
    cases h : d.follow name .above with
    | error e => nofun
    | ok place =>
      obtain rfl := follow_above h
      exact ih

/-- Nothing can follow the name of a file. -/
theorem followAll_file_eq_ok_iff {names : List String} {t : String} :
    d.followAll names (.file t) = .ok place ↔ names = [] ∧ .file t = place := by
  cases names with
  | nil => simp [followAll, pure, Except.pure]
  | cons name names => simp [followAll_cons, follow, bind, Except.bind]

theorem followAll_here_eq_file_iff {names : List String} :
    d.followAll names .here = .ok (.file text) ↔
      ∃ dots name, names = dots ++ [name] ∧ (∀ x ∈ dots, x = "" ∨ x = ".") ∧ IsName name ∧
        d.files.lookup name = some text := by
  induction names with
  | nil => exact iff_of_false nofun fun ⟨_, _, h, _⟩ => by simp at h
  | cons name names ih =>
    rw [followAll_cons]
    constructor
    · intro h
      cases hp : d.follow name .here with
      | error e =>
        rw [hp] at h
        cases h
      | ok place =>
        rw [hp] at h
        change d.followAll names place = _ at h
        cases place with
        | here =>
          obtain ⟨dots, last, rfl, hdots, hlast⟩ := ih.1 h
          refine ⟨name :: dots, last, rfl, ?_, hlast⟩
          simpa [follow_here_eq_here_iff.1 hp] using hdots
        | above => exact absurd h (followAll_above_ne_file names)
        | file t =>
          obtain ⟨rfl, ht⟩ := followAll_file_eq_ok_iff.1 h
          exact ⟨[], name, rfl, by simp, follow_here_eq_file_iff.1 (ht ▸ hp)⟩
    · rintro ⟨dots, last, hnames, hdots, hlast⟩
      cases dots with
      | nil =>
        obtain ⟨rfl, rfl⟩ := List.cons.inj hnames
        rw [follow_here_eq_file_iff.2 hlast]
        rfl
      | cons dot dots =>
        obtain ⟨rfl, rfl⟩ := List.cons.inj hnames
        rw [follow_here_eq_here_iff.2 (hdots _ List.mem_cons_self)]
        exact ih.2 ⟨dots, last, rfl, fun x hx => hdots x (List.mem_cons_of_mem _ hx), hlast⟩

/-- The same names lead to the same place where they stand for the same files. -/
theorem followAll_congr {names : List String}
    (h : ∀ name ∈ names, d.files.lookup name = d'.files.lookup name) (place : Place) :
    d.followAll names place = d'.followAll names place := by
  induction names generalizing place with
  | nil => rfl
  | cons name names ih =>
    have hfollow : d.follow name place = d'.follow name place := by
      cases place <;> simp only [follow, h name List.mem_cons_self]
    rw [followAll_cons, followAll_cons, hfollow]
    exact congrArg _ (funext (ih fun x hx => h x (List.mem_cons_of_mem _ hx)))

/-! ## Paths -/

theorem walk_eq (d : Directory) (path : String) :
    d.walk path =
      if path = "" then .error .missing
      else if maxPath < path.utf8ByteSize then .error .nameTooLong
      else d.followAll (path.splitOn "/") (if path.startsWith "/" then .above else .here) := rfl

theorem read_eq_ok_iff_walk {path : String} :
    d.read path = .ok text ↔ d.walk path = .ok (.file text) := by
  unfold read
  cases d.walk path with
  | error e => exact iff_of_false nofun nofun
  | ok place =>
    cases place with
    | here | above => exact iff_of_false nofun nofun
    | file t => simp [bind, Except.bind, pure, Except.pure]

/-- A path gives a text if it starts in the directory, is not too long and comes to the name of a
file with that text by dots alone. -/
theorem read_eq_ok_iff {path : String} :
    d.read path = .ok text ↔
      path ≠ "" ∧ path.utf8ByteSize ≤ maxPath ∧ path.startsWith "/" = false ∧
        ∃ dots name, path.splitOn "/" = dots ++ [name] ∧ (∀ x ∈ dots, x = "" ∨ x = ".") ∧
          IsName name ∧ d.files.lookup name = some text := by
  rw [read_eq_ok_iff_walk, ← followAll_here_eq_file_iff, walk_eq]
  split_ifs with hempty hlong hslash
  · exact iff_of_false nofun fun h => h.1 hempty
  · exact iff_of_false nofun fun h => absurd h.2.1 (Nat.not_le.2 hlong)
  · refine iff_of_false (followAll_above_ne_file _) fun h => ?_
    rw [hslash] at h
    exact Bool.noConfusion h.2.2.1
  · simp only [ne_eq, hempty, not_false_eq_true, Nat.not_lt.1 hlong, hslash, true_and]

/-- Where a path leads is a matter of the files whose names stand in it. -/
theorem read_congr {path : String}
    (h : ∀ name ∈ path.splitOn "/", d.files.lookup name = d'.files.lookup name) :
    d.read path = d'.read path := by
  rw [read, read, walk_eq, walk_eq, followAll_congr h]

end Directory

/-- In a directory, a command answers what it would if no file were there but those whose names
stand in the paths that it is given. -/
theorem Command.answer_directory (d d' : Directory) (arguments : List String)
    (h : ∀ path ∈ paths arguments, ∀ name ∈ path.splitOn "/",
      d.files.lookup name = d'.files.lookup name) :
    answer d.read arguments = answer d'.read arguments :=
  answer_congr fun path hp => Directory.read_congr (h path hp)

end OutOfOrder
