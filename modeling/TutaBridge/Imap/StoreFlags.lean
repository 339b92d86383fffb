import TutaBridge.Imap.Withdrawals
import TutaBridge.Std.Replace

/-!
# STORE by the text of its arguments

`cmd_store` does not parse the flags of a STORE: it looks for `+FLAGS`, `-FLAGS`, `\SEEN` and
`\DELETED` anywhere in its arguments. RFC 3501 says what a STORE does to each flag: FLAGS
replaces, +FLAGS adds, -FLAGS removes.
-/

namespace TutaBridge.Imap

open TutaBridge.Std Tuta Store Bridge Events

variable {elements : List SeqElement} {char : Char}

/-- `parse_store_args`: the set, and what stands behind the first blank. -/
def parseStoreArgs (args : Text) : Text × Text := (Text.splitOnce ' ' args).getD (args, [])

/-- What `cmd_store` looks for in its arguments. -/
def storeChange (casing : Casing) (args : Text) : ImapSession.FlagChange :=
  let upper := casing.toUppercase args
  { adding := Text.contains upper "+FLAGS".toList
    removing := Text.contains upper "-FLAGS".toList
    seen := Text.contains upper "\\SEEN".toList
    deleted := Text.contains upper "\\DELETED".toList }

/-- `cmd_store` on the text of its arguments. -/
def ImapSession.cmdStoreArgs (casing : Casing) (server : Server) (args : Text) (uidMode : Bool)
    (session : ImapSession) (world : World) : Reply × ImapSession × World :=
  session.cmdStore server (parseStoreArgs args).1 uidMode (storeChange casing args) world

/-! ## STORE in RFC 3501 -/

inductive StoreMode where
  | replace
  | add
  | remove
deriving DecidableEq, Repr

def StoreMode.sign : StoreMode → Text
  | .replace => []
  | .add => ['+']
  | .remove => ['-']

/-- A flag that a STORE listed or not, after it. -/
def StoreMode.apply (mode : StoreMode) (listed before : Bool) : Bool :=
  match mode with
  | .replace => listed
  | .add => before || listed
  | .remove => before && !listed

/-- An `ATOM-CHAR`. -/
def isAtomChar (char : Char) : Bool :=
  0x20 < char.toNat && char.toNat < 0x7F && "()\x7b%*\"\\]".toList.all (· ≠ char)

/-- A flag of a flag list: a keyword, or a system flag or extension with its backslash. -/
structure StoreFlag where
  system : Bool
  name : Text
  isAtom : name ≠ [] ∧ ∀ char ∈ name, isAtomChar char = true

namespace StoreFlag

def print (flag : StoreFlag) : Text := (if flag.system then ['\\'] else []) ++ flag.name

/-- The flag is the system flag of the name, which is given in capitals. -/
def names (word : Text) (flag : StoreFlag) : Bool :=
  flag.system && flag.name.map Char.toUpper = word

/-- The flag begins like the system flag of the name. -/
def begins (word : Text) (flag : StoreFlag) : Bool :=
  flag.system && word.isPrefixOf (flag.name.map Char.toUpper)

/-- The flag has the word in it. -/
def mentions (word : Text) (flag : StoreFlag) : Bool :=
  Text.contains (flag.name.map Char.toUpper) word

theorem begins_of_names {word : Text} {flag : StoreFlag} (named : flag.names word = true) :
    flag.begins word = true := by
  rw [names, Bool.and_eq_true, decide_eq_true_eq] at named
  rw [begins, named.1, named.2, Bool.true_and, List.isPrefixOf_iff_prefix]

end StoreFlag

/-- A STORE as the grammar has it, in any case. -/
structure StoreCommand where
  elements : List SeqElement
  someElements : elements ≠ []
  mode : StoreMode
  item : Text
  isItem : Text.eqIgnoreAsciiCase item "FLAGS".toList = true ∨
    Text.eqIgnoreAsciiCase item "FLAGS.SILENT".toList = true
  flags : List StoreFlag

namespace StoreCommand

/-- The arguments of the command. -/
def args (command : StoreCommand) : Text :=
  printElements command.elements ++ ' ' :: ((command.mode.sign ++ command.item) ++ ' ' :: '(' ::
    ([' '].intercalate (command.flags.map StoreFlag.print) ++ [')']))

/-- `\Seen` is listed. -/
def listsSeen (command : StoreCommand) : Bool := command.flags.any (·.names "SEEN".toList)

/-- `\Deleted` is listed. -/
def listsDeleted (command : StoreCommand) : Bool := command.flags.any (·.names "DELETED".toList)

/-- A flag that begins with `\Seen` is listed. -/
def likeSeen (command : StoreCommand) : Bool := command.flags.any (·.begins "SEEN".toList)

/-- A flag that begins with `\Deleted` is listed. -/
def likeDeleted (command : StoreCommand) : Bool := command.flags.any (·.begins "DELETED".toList)

/-- A flag with `+FLAGS` in it is listed. -/
def plusFlag (command : StoreCommand) : Bool := command.flags.any (·.mentions "+FLAGS".toList)

/-- A flag with `-FLAGS` in it is listed. -/
def minusFlag (command : StoreCommand) : Bool := command.flags.any (·.mentions "-FLAGS".toList)

/-- A message of the set after the command. -/
def prescribed (command : StoreCommand) (cached : CachedMail) : CachedMail :=
  { cached with
    mail := { cached.mail with
      unread := !command.mode.apply command.listsSeen !cached.mail.unread }
    deleted := command.mode.apply command.listsDeleted cached.deleted }

/-- The command may change `\Seen`. -/
def mayChangeSeen (command : StoreCommand) : Bool :=
  command.mode = .replace || command.listsSeen

theorem likeSeen_of_listsSeen {command : StoreCommand} (lists : command.listsSeen = true) :
    command.likeSeen = true := by
  obtain ⟨flag, mem, named⟩ := List.any_eq_true.mp lists
  exact List.any_eq_true.mpr ⟨flag, mem, StoreFlag.begins_of_names named⟩

theorem likeDeleted_of_listsDeleted {command : StoreCommand} (lists : command.listsDeleted = true) :
    command.likeDeleted = true := by
  obtain ⟨flag, mem, named⟩ := List.any_eq_true.mp lists
  exact List.any_eq_true.mpr ⟨flag, mem, StoreFlag.begins_of_names named⟩

end StoreCommand

/-! ## What is found in the arguments -/

section Found

theorem map_intercalate (separator : Char) (change : Char → Char) (parts : List Text) :
    ([separator].intercalate parts).map change = [change separator].intercalate (parts.map (List.map change)) := by
  induction parts with
  | nil => rfl
  | cons part rest ih =>
    cases rest with
    | nil => simp
    | cons next rest =>
      rw [List.intercalate_cons_cons, List.map_append, List.map_append, ih]
      simp [List.intercalate_cons_cons]

theorem ascii_of_isAtomChar (atom : isAtomChar char = true) : char.toNat < 128 := by
  simp only [isAtomChar, Bool.and_eq_true, decide_eq_true_eq] at atom
  omega

theorem toUpper_ne_backslash (atom : isAtomChar char = true) : char.toUpper ≠ '\\' := by
  have found := @Text.of_ascii (fun char => isAtomChar char = true → char.toUpper ≠ '\\') (by decide)
    char (ascii_of_isAtomChar atom)
  exact found atom

theorem backslash_not_mem_upper (flag : StoreFlag) : '\\' ∉ flag.name.map Char.toUpper := by
  intro mem
  obtain ⟨char, inName, same⟩ := List.mem_map.mp mem
  exact toUpper_ne_backslash (flag.isAtom.2 char inName) same

/-- A word with a backslash before it is in a flag that begins with the word. -/
theorem backslash_infix_print (word : Text) (flag : StoreFlag) :
    '\\' :: word <:+: flag.print.map Char.toUpper ↔ flag.begins word = true := by
  have alone : ¬ '\\' :: word <:+: flag.name.map Char.toUpper := fun isInfix =>
    backslash_not_mem_upper flag (isInfix.subset List.mem_cons_self)
  rw [StoreFlag.print, StoreFlag.begins]
  cases flag.system with
  | false => simpa using alone
  | true =>
    rw [if_pos rfl, List.singleton_append, List.map_cons, Bool.true_and, List.isPrefixOf_iff_prefix,
      List.infix_cons_iff]
    have upper : '\\'.toUpper = '\\' := by decide
    rw [upper, List.cons_prefix_cons]
    simp [alone]

/-- Another word is in a flag that has it in its name. -/
theorem infix_print {word : Text} (absent : '\\' ∉ word) (notEmpty : word ≠ []) (flag : StoreFlag) :
    word <:+: flag.print.map Char.toUpper ↔ flag.mentions word = true := by
  rw [StoreFlag.print, StoreFlag.mentions, Text.contains_iff]
  cases flag.system with
  | false => simp
  | true =>
    rw [if_pos rfl, List.singleton_append, List.map_cons]
    have upper : '\\'.toUpper = '\\' := by decide
    have sides := @Text.infix_append_cons_iff '\\' word [] (flag.name.map Char.toUpper) absent
    rw [upper, ← List.nil_append ('\\' :: _), sides, List.infix_nil]
    simp [notEmpty]

variable {casing : Casing} (command : StoreCommand)

theorem not_mem_printElements (mem : char ∈ printElements elements) :
    char.isDigit = true ∨ char = '*' ∨ char = ':' ∨ char = ',' := by
  rcases Text.mem_intercalate mem with comma | ⟨part, inParts, inPart⟩
  · exact .inr (.inr (.inr comma))
  · obtain ⟨element, -, rfl⟩ := List.mem_map.mp inParts
    rcases SeqElement.mem_print inPart with (digit | star) | colon
    · exact .inl digit
    · exact .inr (.inl star)
    · exact .inr (.inr (.inl colon))

theorem ascii_of_mem_printElements (mem : char ∈ printElements elements) : char.toNat < 128 := by
  rcases not_mem_printElements mem with digit | rfl | rfl | rfl
  · have bounds := Text.toNat_of_isDigit digit
    omega
  all_goals decide

/-- What begins with a character that is not in a set is not in it. -/
theorem not_infix_printElements {first : Char} {later : Text}
    (foreign : first.isDigit = false ∧ first ≠ '*' ∧ first ≠ ':' ∧ first ≠ ',') :
    ¬ first :: later <:+: (printElements elements).map Char.toUpper := by
  intro isInfix
  obtain ⟨char, inSet, same⟩ := List.mem_map.mp (isInfix.subset List.mem_cons_self)
  have kind := not_mem_printElements inSet
  have unchanged := @Text.of_ascii (fun char => char.isDigit = true ∨ char = '*' ∨ char = ':' ∨
    char = ',' → char.toUpper = char) (by decide) char (ascii_of_mem_printElements inSet)
  rw [unchanged kind] at same
  subst same
  obtain ⟨noDigit, noStar, noColon, noComma⟩ := foreign
  simp [noDigit, noStar, noColon, noComma] at kind

theorem ascii_of_mem_item (mem : char ∈ command.item) : char.toNat < 128 := by
  have lower : ∀ name : Text, (∀ char ∈ name, char.toLower.toNat < 128) →
      Text.eqIgnoreAsciiCase command.item name = true → char.toNat < 128 := by
    intro name ascii same
    rw [Text.eqIgnoreAsciiCase, decide_eq_true_eq] at same
    obtain ⟨other, inName, isLower⟩ := List.mem_map.mp (same ▸ List.mem_map_of_mem mem)
    exact Text.ascii_of_toLower (isLower ▸ ascii other inName)
  rcases command.isItem with plain | silent
  · exact lower _ (by decide) plain
  · exact lower _ (by decide) silent

/-- The arguments of a STORE are ASCII. -/
theorem ascii_of_mem_args (mem : char ∈ command.args) : char.toNat < 128 := by
  have signs : ∀ char ∈ command.mode.sign, char.toNat < 128 := by
    cases command.mode <;> decide
  have flags : ∀ flag : StoreFlag, char ∈ flag.print → char.toNat < 128 := by
    intro flag inFlag
    rcases List.mem_append.mp inFlag with backslash | inName
    · cases system : flag.system with
      | false => simp [system] at backslash
      | true =>
        rw [system, if_pos rfl] at backslash
        rw [List.mem_singleton.mp backslash]
        decide
    · exact ascii_of_isAtomChar (flag.isAtom.2 char inName)
  simp only [StoreCommand.args, List.mem_append, List.mem_cons, List.not_mem_nil, or_false] at mem
  rcases mem with inSet | rfl | (inSign | inItem) | rfl | rfl | inFlags | rfl
  · exact ascii_of_mem_printElements inSet
  · decide
  · exact signs char inSign
  · exact ascii_of_mem_item command inItem
  · decide
  · decide
  · rcases Text.mem_intercalate inFlags with rfl | ⟨part, inParts, inPart⟩
    · decide
    · obtain ⟨flag, -, rfl⟩ := List.mem_map.mp inParts
      exact flags flag inPart
  · decide

/-- The item in capitals, with the sign of its mode. -/
theorem toUpper_item :
    (command.mode.sign ++ command.item).map Char.toUpper = command.mode.sign ++ "FLAGS".toList ∨
      (command.mode.sign ++ command.item).map Char.toUpper = command.mode.sign ++ "FLAGS.SILENT".toList := by
  have capitals : ∀ name : Text, (∀ char ∈ name, char.toLower.toNat < 128) →
      Text.eqIgnoreAsciiCase command.item name = true →
        command.item.map Char.toUpper = name.map Char.toUpper := by
    intro name ascii same
    rw [← Casing.ascii.toUppercase_of_eqIgnoreAsciiCase same ascii]
    exact (Casing.ascii.toUppercase_ascii fun char => ascii_of_mem_item command).symm
  have sign : command.mode.sign.map Char.toUpper = command.mode.sign := by
    cases command.mode <;> decide
  rw [List.map_append, sign]
  rcases command.isItem with plain | silent
  · left
    rw [capitals _ (by decide) plain]
    exact congrArg (command.mode.sign ++ ·) (by decide)
  · right
    rw [capitals _ (by decide) silent]
    exact congrArg (command.mode.sign ++ ·) (by decide)

/-- A word without the characters that part the arguments is found where the item or the
flags have it. -/
theorem contains_args {first : Char} {later : Text}
    (foreign : first.isDigit = false ∧ first ≠ '*' ∧ first ≠ ':' ∧ first ≠ ',')
    (solid : ' ' ∉ first :: later ∧ '(' ∉ first :: later ∧ ')' ∉ first :: later) :
    Text.contains (casing.toUppercase command.args) (first :: later) = true ↔
      first :: later <:+: (command.mode.sign ++ command.item).map Char.toUpper ∨
        ∃ flag ∈ command.flags, first :: later <:+: flag.print.map Char.toUpper := by
  have blank : ' '.toUpper = ' ' := by decide
  have opening : '('.toUpper = '(' := by decide
  have closing : ')'.toUpper = ')' := by decide
  have notEmpty : first :: later ≠ [] := List.cons_ne_nil _ _
  have shape : command.args.map Char.toUpper = (printElements command.elements).map Char.toUpper ++ ' ' ::
        ((command.mode.sign ++ command.item).map Char.toUpper ++ ' ' :: ([] ++ '(' ::
          ([' '].intercalate (command.flags.map fun flag => flag.print.map Char.toUpper) ++ ')' :: []))) := by
    have flags := map_intercalate ' ' Char.toUpper (command.flags.map StoreFlag.print)
    rw [blank, List.map_map] at flags
    simp only [StoreCommand.args, List.map_append, List.map_cons, List.map_nil, blank, opening,
      closing, flags, List.nil_append]
    rfl
  rw [Text.contains_iff, casing.toUppercase_ascii fun char => ascii_of_mem_args command, shape,
    Text.infix_append_cons_iff solid.1, Text.infix_append_cons_iff solid.1,
    Text.infix_append_cons_iff solid.2.1, Text.infix_append_cons_iff solid.2.2,
    Text.infix_intercalate_iff solid.1 notEmpty, List.infix_nil]
  simp [not_infix_printElements foreign]

/-- `.SILENT` has none of the words in it. -/
theorem contains_item {word : Text}
    (isWord : word ∈ ["+FLAGS", "-FLAGS", "\\SEEN", "\\DELETED"].map String.toList) :
    word <:+: (command.mode.sign ++ command.item).map Char.toUpper ↔
      Text.contains (command.mode.sign ++ "FLAGS".toList) word = true := by
  have silent : ∀ mode : StoreMode,
      ∀ word ∈ ["+FLAGS", "-FLAGS", "\\SEEN", "\\DELETED"].map String.toList,
        Text.contains (mode.sign ++ "FLAGS.SILENT".toList) word =
        Text.contains (mode.sign ++ "FLAGS".toList) word := by
    intro mode
    cases mode <;> decide
  rw [← Text.contains_iff]
  rcases toUpper_item command with plain | isSilent
  · rw [plain]
  · rw [isSilent, silent _ word isWord]

/-- What `cmd_store` finds: the sign or a flag with the sign and FLAGS in it, and the flags
that begin with `\Seen` and `\Deleted`. -/
theorem storeChange_args : storeChange casing command.args =
      { adding := command.mode = .add || command.plusFlag
        removing := command.mode = .remove || command.minusFlag
        seen := command.likeSeen
        deleted := command.likeDeleted } := by
  have adds : ∀ mode : StoreMode,
      Text.contains (mode.sign ++ "FLAGS".toList) "+FLAGS".toList = decide (mode = .add) := by
    intro mode
    cases mode <;> decide
  have removes : ∀ mode : StoreMode,
      Text.contains (mode.sign ++ "FLAGS".toList) "-FLAGS".toList = decide (mode = .remove) := by
    intro mode
    cases mode <;> decide
  have noSystem : ∀ mode : StoreMode, Text.contains (mode.sign ++ "FLAGS".toList) "\\SEEN".toList = false ∧
        Text.contains (mode.sign ++ "FLAGS".toList) "\\DELETED".toList = false := by
    intro mode
    cases mode <;> decide
  rw [storeChange]
  congr 1
  · rw [Bool.eq_iff_iff, Bool.or_eq_true, ← adds, StoreCommand.plusFlag, List.any_eq_true]
    refine (contains_args command (by decide) (by decide)).trans (or_congr ?_ ?_)
    · exact contains_item command (by decide)
    · exact exists_congr fun flag => and_congr_right fun _ =>
        @infix_print "+FLAGS".toList (by decide) (by decide) flag
  · rw [Bool.eq_iff_iff, Bool.or_eq_true, ← removes, StoreCommand.minusFlag, List.any_eq_true]
    refine (contains_args command (by decide) (by decide)).trans (or_congr ?_ ?_)
    · exact contains_item command (by decide)
    · exact exists_congr fun flag => and_congr_right fun _ =>
        @infix_print "-FLAGS".toList (by decide) (by decide) flag
  · rw [Bool.eq_iff_iff, StoreCommand.likeSeen, List.any_eq_true]
    refine (contains_args command (by decide) (by decide)).trans ?_
    refine Iff.trans (or_iff_right fun inItem => ?_) (exists_congr fun flag =>
      and_congr_right fun _ => backslash_infix_print "SEEN".toList flag)
    have found := (@contains_item command "\\SEEN".toList (by decide)).mp inItem
    rw [(noSystem command.mode).1] at found
    cases found
  · rw [Bool.eq_iff_iff, StoreCommand.likeDeleted, List.any_eq_true]
    refine (contains_args command (by decide) (by decide)).trans ?_
    refine Iff.trans (or_iff_right fun inItem => ?_) (exists_congr fun flag =>
      and_congr_right fun _ => backslash_infix_print "DELETED".toList flag)
    have found := (@contains_item command "\\DELETED".toList (by decide)).mp inItem
    rw [(noSystem command.mode).2] at found
    cases found

theorem parseStoreArgs_args : (parseStoreArgs command.args).1 = printElements command.elements := by
  have solid : ' ' ∉ printElements command.elements := by
    intro mem
    have kind := not_mem_printElements mem
    exact absurd kind (by decide)
  rw [parseStoreArgs, StoreCommand.args, Text.splitOnce_append solid, Option.getD_some]

end Found

/-! ## What `cmd_store` does -/

namespace ImapSession

/-- What a STORE makes of a message of the set. -/
def FlagChange.apply (change : FlagChange) (cached : CachedMail) : CachedMail :=
  { cached with
    mail := { cached.mail with unread := if change.seen then !change.adding else cached.mail.unread }
    deleted := if change.deleted then !change.removing else cached.deleted }

theorem foldl_modifyAt (change : CachedMail → CachedMail) (session : ImapSession) {indices : List Nat}
    (distinct : indices.Nodup) :
    indices.foldl (fun session index => session.modifyAt index change) session =
      { session with mails := changeAt change session.mails indices } := by
  have fold : ∀ mails, indices.foldl (fun session index => session.modifyAt index change)
      { session with mails := mails } =
        { session with mails := indices.foldl (fun mails index => mails.modify index change) mails } := by
    intro mails
    clear distinct
    induction indices generalizing mails with
    | nil => rfl
    | cons index rest ih => exact ih _
  rw [← foldl_modify change session.mails distinct]
  exact fold session.mails

theorem idsAt_changeAt (change : CachedMail → CachedMail)
    (keeps : ∀ cached, (change cached).mail.id = cached.mail.id) (session : ImapSession) (indices : List Nat) :
    { session with mails := changeAt change session.mails indices }.idsAt indices =
      session.idsAt indices := by
  refine List.filterMap_congr fun index _ => ?_
  dsimp only
  rw [getElem?_changeAt]
  cases session.mails[index]? with
  | none => rfl
  | some cached => by_cases chosen : index ∈ indices <;> simp [chosen, keeps]

/-- A STORE changes the messages of the set, and asks the server when it found `\SEEN` and
a message has an id. -/
theorem cmdStore_eq (server : Server) (set : Text) (uidMode : Bool) (change : FlagChange)
    {session : ImapSession} (selected : session.state = .selected) (world : World) :
    (session.cmdStore server set uidMode change world).1.requests =
        (if change.seen = true ∧ session.idsAt (session.picked set uidMode) ≠ [] then
          [.setUnreadStatus (session.idsAt (session.picked set uidMode)) !change.adding] else []) ∧
      (session.cmdStore server set uidMode change world).2.1 =
        { session with mails := changeAt change.apply session.mails (session.picked set uidMode) } := by
  have ascending : (session.picked set uidMode).Pairwise (· < ·) := resolveSequenceSet_ascending set
  have distinct : (session.picked set uidMode).Nodup := ascending.imp fun less => ne_of_lt less
  have unchanged : ∀ list : List CachedMail, changeAt id list (session.picked set uidMode) = list := by
    intro list
    refine List.ext_getElem? fun place => ?_
    rw [getElem?_changeAt]
    cases list[place]? <;> simp
  rw [cmdStore, if_neg (not_not.mpr selected)]
  dsimp only
  have seenHalf : ∃ world', (if change.seen = true then
        storeSeen server (session.picked set uidMode) change.adding session world
      else ([], session, world)) =
      ((if change.seen = true ∧ session.idsAt (session.picked set uidMode) ≠ [] then
          [.setUnreadStatus (session.idsAt (session.picked set uidMode)) !change.adding] else []),
        { session with
          mails := changeAt (fun cached => { cached with
            mail := { cached.mail with
              unread := if change.seen then !change.adding else cached.mail.unread } })
            session.mails (session.picked set uidMode) }, world') := by
    cases seen : change.seen with
    | false =>
      refine ⟨world, ?_⟩
      rw [if_neg Bool.false_ne_true, if_neg (by simp)]
      have same := unchanged session.mails
      exact congrArg (fun mails => ([], { session with mails := mails }, world)) same.symm
    | true =>
      have ids := idsAt_changeAt (fun cached =>
        { cached with mail := { cached.mail with unread := !change.adding } }) (fun _ => rfl) session
        (session.picked set uidMode)
      rw [if_pos rfl, storeSeen, foldl_modifyAt _ session distinct]
      dsimp only
      rw [ids]
      by_cases nothing : session.idsAt (session.picked set uidMode) = []
      · exact ⟨world, by simp [nothing]⟩
      · refine ⟨(world.ask fun tick => server tick (.setUnreadStatus
          (session.idsAt (session.picked set uidMode)) !change.adding)).2, ?_⟩
        rw [if_neg (by simpa using nothing), if_pos ⟨rfl, nothing⟩]
        rfl
  obtain ⟨world', half⟩ := seenHalf
  rw [half]
  refine ⟨rfl, ?_⟩
  dsimp only
  cases deleted : change.deleted with
  | false =>
    rw [if_neg Bool.false_ne_true]
    refine congrArg (fun change => { session with
      mails := changeAt change session.mails (session.picked set uidMode) }) ?_
    funext cached
    simp [FlagChange.apply, deleted]
  | true =>
    rw [if_pos rfl, foldl_modifyAt _ _ distinct]
    dsimp only
    rw [changeAt_changeAt]
    refine congrArg (fun change => { session with
      mails := changeAt change session.mails (session.picked set uidMode) }) ?_
    funext cached
    simp [FlagChange.apply, deleted]

end ImapSession

/-! ## Where the two agree -/

/-- A STORE as RFC 3501 has it: the messages of the set have their flags as prescribed, the
others are as they were, and where `\Seen` may have changed the server is told of the
messages of the set what they are now. -/
structure FollowsRfc (command : StoreCommand) (session : ImapSession) (indices : List Nat)
    (done : Reply × ImapSession × World) : Prop where
  view : done.2.1 = { session with mails := changeAt command.prescribed session.mails indices }
  call : command.mayChangeSeen = true → session.idsAt indices ≠ [] →
    ∃ unread, done.1.requests = [.setUnreadStatus (session.idsAt indices) unread] ∧
      ∀ cached ∈ done.2.1.messagesAt indices, cached.mail.unread = unread

namespace StoreCommand

/-- The `\Seen` half: FLAGS needs a flag like `\Seen`, and `\Seen` itself exactly when a
flag has `+FLAGS` in it; a flag that is only like `\Seen` is harmless where the messages are
already as it makes them. -/
def SeenFits (command : StoreCommand) (messages : List CachedMail) : Prop :=
  match command.mode with
  | .replace =>
    if command.likeSeen then command.plusFlag = command.listsSeen
    else (∀ cached ∈ messages, cached.mail.unread = true) ∧ messages.filterMap (·.mail.id) = []
  | .add =>
    command.likeSeen = command.listsSeen ∨ ∀ cached ∈ messages, cached.mail.unread = false
  | .remove =>
    if command.listsSeen then command.plusFlag = false
    else command.likeSeen = true → ∀ cached ∈ messages, cached.mail.unread = !command.plusFlag

/-- The `\Deleted` half. -/
def DeletedFits (command : StoreCommand) (messages : List CachedMail) : Prop :=
  match command.mode with
  | .replace =>
    if command.likeDeleted then command.minusFlag = !command.listsDeleted
    else ∀ cached ∈ messages, cached.deleted = false
  | .add =>
    if command.listsDeleted then command.minusFlag = false
    else command.likeDeleted = true → ∀ cached ∈ messages, cached.deleted = !command.minusFlag
  | .remove =>
    command.likeDeleted = command.listsDeleted ∨ ∀ cached ∈ messages, cached.deleted = false

end StoreCommand

section Agree

variable (command : StoreCommand) {messages : List CachedMail}

theorem forall_mem_const {α : Type} {list : List α} (notEmpty : list ≠ []) {p : Prop} : (∀ item ∈ list, p) ↔ p := by
  obtain ⟨item, mem⟩ := List.exists_mem_of_ne_nil list notEmpty
  exact ⟨fun all => all item mem, fun holds _ _ => holds⟩

theorem seenFits_iff (notEmpty : messages ≠ []) : ((∀ cached ∈ messages,
        (if command.likeSeen then !(command.mode = .add || command.plusFlag : Bool)
          else cached.mail.unread) = !command.mode.apply command.listsSeen !cached.mail.unread) ∧
      (command.mayChangeSeen = true → messages.filterMap (·.mail.id) ≠ [] → command.likeSeen = true)) ↔
      command.SeenFits messages := by
  have like := @StoreCommand.likeSeen_of_listsSeen command
  have const := fun p => @forall_mem_const CachedMail messages notEmpty p
  rw [StoreCommand.SeenFits, StoreCommand.mayChangeSeen]
  cases command.mode <;> cases likes : command.likeSeen <;> cases lists : command.listsSeen <;>
    cases plus : command.plusFlag <;> simp_all [StoreMode.apply]

theorem deletedFits_iff (notEmpty : messages ≠ []) : (∀ cached ∈ messages,
        (if command.likeDeleted then !(command.mode = .remove || command.minusFlag : Bool)
          else cached.deleted) = command.mode.apply command.listsDeleted cached.deleted) ↔
      command.DeletedFits messages := by
  have like := @StoreCommand.likeDeleted_of_listsDeleted command
  have const := fun p => @forall_mem_const CachedMail messages notEmpty p
  rw [StoreCommand.DeletedFits]
  cases command.mode <;> cases likes : command.likeDeleted <;> cases lists : command.listsDeleted <;>
    cases minus : command.minusFlag <;> simp_all [StoreMode.apply]

theorem apply_eq_prescribed_iff (casing : Casing) (cached : CachedMail) :
    (storeChange casing command.args).apply cached = command.prescribed cached ↔
      (if command.likeSeen then !(command.mode = .add || command.plusFlag : Bool)
        else cached.mail.unread) = !command.mode.apply command.listsSeen !cached.mail.unread ∧
      (if command.likeDeleted then !(command.mode = .remove || command.minusFlag : Bool)
        else cached.deleted) = command.mode.apply command.listsDeleted cached.deleted := by
  obtain ⟨mail, bodyLoaded, uid, deleted⟩ := cached
  obtain ⟨id, subject, sender, receivedDate, unread⟩ := mail
  simp [storeChange_args, ImapSession.FlagChange.apply, StoreCommand.prescribed]

end Agree

/-- A STORE in a selected view does what RFC 3501 says exactly when its set picks no message
or both halves fit. -/
theorem cmdStoreArgs_iff (casing : Casing) (server : Server) (command : StoreCommand) (uidMode : Bool)
    {session : ImapSession} (selected : session.state = .selected) (world : World) :
    FollowsRfc command session (session.picked (printElements command.elements) uidMode)
        (session.cmdStoreArgs casing server command.args uidMode world) ↔
      session.messagesAt (session.picked (printElements command.elements) uidMode) = [] ∨
        command.SeenFits (session.messagesAt (session.picked (printElements command.elements) uidMode)) ∧
        command.DeletedFits (session.messagesAt (session.picked (printElements command.elements) uidMode)) := by
  obtain ⟨requests, view⟩ := ImapSession.cmdStore_eq server (printElements command.elements) uidMode
    (storeChange casing command.args) selected world
  have ids := ImapSession.idsAt_picked session (printElements command.elements) uidMode
  rw [ImapSession.cmdStoreArgs, parseStoreArgs_args]
  generalize session.picked (printElements command.elements) uidMode = indices at requests view ids ⊢
  generalize session.cmdStore server _ _ _ world = done at requests view ⊢
  have viewIff : (done.2.1 = { session with mails := changeAt command.prescribed session.mails indices }) ↔
      ∀ cached ∈ session.messagesAt indices,
        (storeChange casing command.args).apply cached = command.prescribed cached := by
    rw [view]
    refine Iff.trans ?_ changeAt_eq_iff
    exact ⟨fun same => congrArg ImapSession.mails same,
      fun same => congrArg (fun mails => { session with mails := mails }) same⟩
  have callIff : (command.mayChangeSeen = true → session.idsAt indices ≠ [] →
      ∃ unread, done.1.requests = [.setUnreadStatus (session.idsAt indices) unread] ∧
        ∀ cached ∈ done.2.1.messagesAt indices, cached.mail.unread = unread) ↔
      (command.mayChangeSeen = true → session.idsAt indices ≠ [] → command.likeSeen = true) := by
    refine forall₂_congr fun _ some' => ?_
    rw [requests, storeChange_args]
    cases likes : command.likeSeen with
    | false => simp
    | true =>
      refine ⟨fun _ => rfl, fun _ => ⟨_, if_pos ⟨rfl, some'⟩, fun cached mem => ?_⟩⟩
      rw [view] at mem
      obtain ⟨old, -, rfl⟩ := mem_elementsAt_changeAt.mp mem
      simp [storeChange_args, ImapSession.FlagChange.apply, likes]
  have followsIff : FollowsRfc command session indices done ↔ _ :=
    ⟨fun follows => And.intro follows.view follows.call, fun both => ⟨both.1, both.2⟩⟩
  rw [followsIff, viewIff, callIff, ids]
  by_cases nothing : session.messagesAt indices = []
  · simp [nothing]
  · rw [or_iff_right nothing, ← seenFits_iff command nothing, ← deletedFits_iff command nothing]
    simp only [apply_eq_prescribed_iff, forall_and]
    exact and_right_comm

/-- A STORE of the system flag for the first message. -/
def storeFirst (mode : StoreMode) (name : Text)
    (isAtom : name ≠ [] ∧ ∀ char ∈ name, isAtomChar char = true) : StoreCommand where
  elements := [.one (.number 1 (by decide) (by decide))]
  someElements := List.cons_ne_nil _ _
  mode := mode
  item := "FLAGS".toList
  isItem := .inl (by decide)
  flags := [⟨true, name, isAtom⟩]

/-- `+FLAGS (\Seen)` reads the first message. -/
theorem cmdStoreArgs_add_seen :
    FollowsRfc (storeFirst .add "Seen".toList (by decide)) (inboxSession [sampleCached "mail1" 1 false])
      [0] ((inboxSession [sampleCached "mail1" 1 false]).cmdStoreArgs .ascii acceptingServer
        (storeFirst .add "Seen".toList (by decide)).args false archiveWorld) :=
  (@cmdStoreArgs_iff .ascii acceptingServer (storeFirst .add "Seen".toList (by decide)) false
    (inboxSession [sampleCached "mail1" 1 false]) rfl archiveWorld).mpr (.inr ⟨.inl (by decide), by
        have noDeleted : (storeFirst .add "Seen".toList (by decide)).likeDeleted = false := by decide
        exact fun like => absurd like (by rw [noDeleted]; decide)⟩)

/-- `FLAGS (\Seen)` leaves an unread message unread, and tells the server so. -/
theorem cmdStoreArgs_replace_seen :
    (storeFirst .replace "Seen".toList (by decide)).args = "1 FLAGS (\\Seen)".toList ∧
      ((inboxSession [sampleCached "mail1" 1 false]).cmdStoreArgs .ascii acceptingServer
        "1 FLAGS (\\Seen)".toList false archiveWorld).1.requests =
          [.setUnreadStatus [⟨"list1", "mail1"⟩] true] ∧
      ((inboxSession [sampleCached "mail1" 1 false]).cmdStoreArgs .ascii acceptingServer
        "1 FLAGS (\\Seen)".toList false archiveWorld).2.1.mails = [sampleCached "mail1" 1 false] ∧
      ((storeFirst .replace "Seen".toList (by decide)).prescribed
        (sampleCached "mail1" 1 false)).mail.unread = false := by
  refine ⟨by decide +kernel, by decide +kernel, by decide +kernel, by decide⟩

end TutaBridge.Imap
