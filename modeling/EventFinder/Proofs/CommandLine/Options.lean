import EventFinder.CommandLine.Arguments

/-!
# Command lines that are read back

A command line that is written from a data directory, a command, its options by their long names and its operand
is read as just that (`ofList_line`). An operand that begins with a dash stands behind two dashes.
-/

set_option autoImplicit false

namespace EventFinder

namespace CommandLine

/-! ## Writing -/

/-- An option by its long name, with its value if it has one. -/
def Opt.word (opt : Opt) (value : String) : String :=
  String.ofList ('-' :: '-' :: (opt.long.toList ++ if opt.hasValue then '=' :: value.toList else []))

/-- Options by their long names. -/
def optionWords (options : List (Opt × String)) : List String := options.map fun o => o.1.word o.2

/-- An operand; one that begins with a dash stands behind two dashes. -/
def operandWords (operand : String) : List String :=
  if operand.toList.head? = some '-' then ["--", operand] else [operand]

/-- The option that names a data directory. -/
def directoryOptions (directory : Option String) : List (Opt × String) :=
  directory.toList.map fun path => (.dataDirectory, path)

/-- A command line. -/
def lineWords (directory : Option String) (verb : Verb) (options : List (Opt × String)) (operand : String) :
    List String :=
  optionWords (directoryOptions directory) ++ verb.label :: (optionWords options ++ operandWords operand)

/-! ## Options -/

namespace Opt

theorem notMem_long (opt : Opt) : '=' ∉ opt.long.toList := by
  cases opt <;> simp [long]

theorem toList_long_ne_nil (opt : Opt) : opt.long.toList ≠ [] := by
  cases opt <;> simp [long]

theorem long_ne_help (opt : Opt) : opt.long ≠ "help" := by
  cases opt <;> simp [long]

/-- An option can be given with a value: a flag has an empty one. -/
def Takes (opt : Opt) (value : String) : Prop :=
  opt.accepts value = true ∧ (opt.hasValue = false → value = "")

end Opt

theorem takeWhile_ne_of_notMem {name : List Char} (h : '=' ∉ name) (rest : List Char) :
    (name ++ rest).takeWhile (· ≠ '=') = name ++ rest.takeWhile (· ≠ '=') :=
  List.takeWhile_append_of_pos fun _ hc => decide_eq_true fun heq => h (heq ▸ hc)

theorem dropWhile_ne_of_notMem {name : List Char} (h : '=' ∉ name) (rest : List Char) :
    (name ++ rest).dropWhile (· ≠ '=') = rest.dropWhile (· ≠ '=') :=
  List.dropWhile_append_of_pos fun _ hc => decide_eq_true fun heq => h (heq ▸ hc)

theorem splitEquals_of_notMem {name : List Char} (h : '=' ∉ name) :
    splitEquals name = (String.ofList name, none) := by
  have htake := takeWhile_ne_of_notMem h []
  have hdrop := dropWhile_ne_of_notMem h []
  rw [List.append_nil, List.takeWhile_nil, List.append_nil] at htake
  rw [List.append_nil, List.dropWhile_nil] at hdrop
  rw [splitEquals, htake, hdrop]

theorem splitEquals_append {name value : List Char} (h : '=' ∉ name) :
    splitEquals (name ++ '=' :: value) = (String.ofList name, some (String.ofList value)) := by
  have htake : ('=' :: value).takeWhile (· ≠ '=') = [] := by simp
  have hdrop : ('=' :: value).dropWhile (· ≠ '=') = '=' :: value := by simp
  rw [splitEquals, takeWhile_ne_of_notMem h, dropWhile_ne_of_notMem h, htake, hdrop, List.append_nil]

section Reading

variable {level : Level} {opt : Opt} {value : String} {given : Given}

theorem add_of_takes (htakes : opt.Takes value) (hnew : given.has opt = false) :
    given.add opt value = .ok { given with options := given.options ++ [(opt, value)] } := by
  rw [Given.add, hnew, htakes.1]
  rfl

/-- An option by its long name is one more option. -/
theorem readName_word (hlevel : level.long? opt.long = some opt) (htakes : opt.Takes value)
    (hnew : given.has opt = false) :
    readName level (opt.long.toList ++ if opt.hasValue then '=' :: value.toList else []) given =
      .ok ({ given with options := given.options ++ [(opt, value)] }, none) := by
  cases hvalue : opt.hasValue with
  | true =>
      rw [if_pos rfl, readName, splitEquals_append opt.notMem_long, String.ofList_toList,
        String.ofList_toList]
      dsimp only
      rw [if_neg opt.long_ne_help, hlevel]
      dsimp only
      rw [hvalue, if_pos rfl, add_of_takes htakes hnew]
      rfl
  | false =>
      rw [if_neg Bool.false_ne_true, List.append_nil, readName, splitEquals_of_notMem opt.notMem_long,
        String.ofList_toList]
      dsimp only
      rw [if_neg opt.long_ne_help, hlevel]
      dsimp only
      rw [hvalue, if_neg Bool.false_ne_true, ← htakes.2 hvalue, add_of_takes htakes hnew]
      rfl

theorem readWords_word (hlevel : level.long? opt.long = some opt) (htakes : opt.Takes value)
    (hnew : given.has opt = false) (rest : List String) :
    readWords level none (opt.word value :: rest) given =
      readWords level none rest { given with options := given.options ++ [(opt, value)] } := by
  have hname := readName_word hlevel htakes hnew
  rw [readWords, Opt.word, String.toList_ofList]
  -- There is a name behind the dashes, so that they do not stand alone.
  cases hchars : opt.long.toList with
  | nil => exact absurd hchars opt.toList_long_ne_nil
  | cons c cs =>
      rw [hchars] at hname
      rw [List.cons_append] at hname ⊢
      change (readName level (c :: _) given >>= fun read => readWords level read.2 rest read.1) = _
      rw [hname]
      rfl

end Reading

/-- Different options by their long names are read in order. -/
theorem readWords_optionWords {level : Level} {options : List (Opt × String)}
    (hoptions : ∀ o ∈ options, level.long? o.1.long = some o.1 ∧ o.1.Takes o.2)
    (hnodup : (options.map Prod.fst).Nodup) (rest : List String) :
    readWords level none (optionWords options ++ rest) .nothing = readWords level none rest ⟨options, none⟩ := by
  suffices h : ∀ before : List (Opt × String), ((before ++ options).map Prod.fst).Nodup →
      readWords level none (optionWords options ++ rest) ⟨before, none⟩ =
        readWords level none rest ⟨before ++ options, none⟩ from h [] hnodup
  clear hnodup
  induction options with
  | nil =>
      intro before _
      rw [List.append_nil]
      rfl
  | cons option others ih =>
      obtain ⟨opt, value⟩ := option
      rw [List.forall_mem_cons] at hoptions
      intro before hnodup
      have hnew : Given.has ⟨before, none⟩ opt = false := by
        rw [Given.has, List.any_eq_false]
        intro o ho
        rw [List.map_append, List.map_cons, List.nodup_append] at hnodup
        exact fun heq => hnodup.2.2 o.1 (List.mem_map_of_mem ho) opt List.mem_cons_self (of_decide_eq_true heq)
      rw [optionWords, List.map_cons, List.cons_append,
        readWords_word hoptions.1.1 hoptions.1.2 hnew, ← optionWords, ih hoptions.2, List.append_assoc,
        List.singleton_append]
      rwa [List.append_assoc, List.singleton_append]

/-- A word that begins with no dash is an operand. -/
theorem readWords_plain {word : String} (h : word.toList.head? ≠ some '-') (level : Level)
    (rest : List String) (given : Given) :
    readWords level none (word :: rest) given =
      if level = .outer then .ok (given, some (word, rest))
      else given.addOperand level word >>= fun given => readWords level none rest given := by
  rw [readWords]
  split
  · rename_i hdash
    exact absurd (by rw [hdash]; rfl) h
  · rename_i hdash
    exact absurd (by rw [hdash]; rfl) h
  · rename_i hdash
    exact absurd (by rw [hdash]; rfl) h
  · rfl

/-- An operand is read as itself. -/
theorem readWords_operandWords {verb : Verb} {options : List (Opt × String)} {operand : String}
    (haccepts : verb.acceptsOperand operand = true) :
    readWords (.inner verb) none (operandWords operand) ⟨options, none⟩ =
      .ok (⟨options, some operand⟩, none) := by
  have hadd : Given.addOperand (.inner verb) ⟨options, none⟩ operand = .ok ⟨options, some operand⟩ := by
    change (if verb.acceptsOperand operand then _ else _) = _
    rw [if_pos haccepts]
  rw [operandWords]
  split
  · rw [readWords]
    change (readOperands (.inner verb) [operand] ⟨options, none⟩).map (·, none) = _
    rw [readOperands, hadd]
    rfl
  · rename_i hdash
    rw [readWords_plain hdash, if_neg nofun, hadd]
    rfl

/-! ## Whole lines -/

theorem long?_of_mem_options {verb : Verb} {opt : Opt} (h : opt ∈ verb.options) :
    Level.long? (.inner verb) opt.long = some opt := by
  have hall : ∀ opt ∈ verb.options, Level.long? (.inner verb) opt.long = some opt := by
    cases verb <;> simp [Level.long?, Level.options, Verb.options, Opt.anywhere, Opt.paging, Opt.long]
  exact hall opt h

theorem notMem_options_of_anywhere {verb : Verb} {opt : Opt} (h : opt ∈ Opt.anywhere) : opt ∉ verb.options := by
  have hall : ∀ opt ∈ Opt.anywhere, opt ∉ verb.options := by
    cases verb <;> simp [Verb.options, Opt.anywhere, Opt.paging]
  exact hall opt h

namespace Verb

theorem ofLabel?_label (verb : Verb) : ofLabel? verb.label = some verb := by
  cases verb <;> simp [ofLabel?, all, label]

theorem label_ne_help (verb : Verb) : verb.label ≠ "help" := by
  cases verb <;> simp [label]

theorem head?_label (verb : Verb) : verb.label.toList.head? ≠ some '-' := by
  cases verb <;> simp [label]

end Verb

section Lines

variable {verb : Verb} {directory : Option String} {options : List (Opt × String)} {operand : String}

/-- Options of the command are none of those that may stand anywhere. -/
theorem has_eq_false (hoptions : ∀ o ∈ options, o.1 ∈ verb.options) {opt : Opt} (h : opt ∈ Opt.anywhere) :
    Given.has ⟨options, some operand⟩ opt = false := by
  rw [Given.has, List.any_eq_false]
  intro o ho heq
  exact notMem_options_of_anywhere h (of_decide_eq_true heq ▸ hoptions o ho)

/-- Before the command there is the data directory, if there is one. -/
theorem readWords_directoryOptions (hdirectory : directory ≠ some "") (rest : List String) :
    readWords .outer none (optionWords (directoryOptions directory) ++ verb.label :: rest) .nothing =
      .ok (⟨directoryOptions directory, none⟩, some (verb.label, rest)) := by
  have hnodup : ((directoryOptions directory).map Prod.fst).Nodup := by
    cases directory with
    | none => exact List.nodup_nil
    | some path => simp [directoryOptions]
  rw [readWords_optionWords _ hnodup, readWords_plain verb.head?_label, if_pos rfl]
  intro o ho
  cases directory with
  | none => cases ho
  | some path =>
      have hlong : Level.long? .outer Opt.dataDirectory.long = some .dataDirectory := by
        simp [Level.long?, Level.options, Opt.anywhere, Opt.long]
      rw [List.mem_singleton.1 ho]
      exact ⟨hlong, decide_eq_true fun hempty => hdirectory (congrArg some hempty), nofun⟩

/-- A line of a data directory, a command, its options and its operand is read as just that. -/
theorem ofList_lineWords {command : Command} (hdirectory : directory ≠ some "")
    (hoptions : ∀ o ∈ options, o.1 ∈ verb.options ∧ o.1.Takes o.2) (hnodup : (options.map Prod.fst).Nodup)
    (hoperand : verb.acceptsOperand operand = true)
    (hcommand : Given.command? ⟨options, some operand⟩ verb = some command) :
    Arguments.ofList (lineWords directory verb options operand) = .ok ⟨directory, 0, false, command⟩ := by
  have hinner : readWords (.inner verb) none (optionWords options ++ operandWords operand) .nothing =
      .ok (⟨options, some operand⟩, none) := by
    rw [readWords_optionWords (fun o ho => ⟨long?_of_mem_options (hoptions o ho).1, (hoptions o ho).2⟩) hnodup,
      readWords_operandWords hoperand]
  have hnone : ∀ opt ∈ Opt.anywhere, Given.has ⟨options, some operand⟩ opt = false := fun opt hopt =>
    has_eq_false (fun o ho => (hoptions o ho).1) hopt
  have hpreferred : ∀ outer, ∀ opt ∈ Opt.anywhere, preferred outer ⟨options, some operand⟩ opt = outer := by
    intro outer opt hopt
    rw [preferred, hnone opt hopt, if_neg Bool.false_ne_true]
  rw [Arguments.ofList, lineWords, readWords_directoryOptions hdirectory]
  dsimp only [bind, Except.bind]
  rw [if_neg verb.label_ne_help, verb.ofLabel?_label]
  dsimp only
  rw [hinner]
  dsimp only
  rw [hcommand]
  dsimp only
  rw [hpreferred _ .dataDirectory (by decide), hpreferred _ .verbose (by decide),
    hpreferred _ .quiet (by decide), Given.consistent, Given.consistent, hnone .quiet (by decide)]
  cases directory with
  | none => rfl
  | some path => rfl

end Lines

end CommandLine

end EventFinder
