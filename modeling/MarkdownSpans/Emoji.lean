import MarkdownSpans.Text.Space

/-!
# Emoji shortcodes and smileys

A shortcode such as `:tada:` and a smiley such as `:-)` stand for an emoji, at the start of a text
run or after white space only. `replaceEmoji` replaces them by the emoji of a registry; a shortcode
wins over a smiley, a longer smiley over a shorter one. Which shortcodes there are is told from
outside: everything here works with any registry, and `knownEmoji` is a small one to run with.
-/

namespace MarkdownSpans

/-- The emoji of each known shortcode. -/
abbrev EmojiRegistry := String → Option String

/-- Each smiley with the shortcode it stands for. -/
def smileys : List (String × String) :=
  [(">:(", "angry"), (">:-(", "angry"), (":\")", "blush"), (":-\")", "blush"),
   ("</3", "broken_heart"), (":/", "confused"), (":-/", "confused"), (":'(", "cry"),
   (":'-(", "cry"), (":,(", "cry"), (":,-(", "cry"), (":(", "disappointed"),
   (":-(", "disappointed"), ("<3", "heart"), ("]:(", "imp"), ("]:-(", "imp"),
   ("o:)", "innocent"), ("O:)", "innocent"), ("o:-)", "innocent"), ("O:-)", "innocent"),
   ("0:)", "innocent"), ("0:-)", "innocent"), (":')", "joy"), (":'-)", "joy"), (":,)", "joy"),
   (":,-)", "joy"), (":'D", "joy"), (":'-D", "joy"), (":,D", "joy"), (":,-D", "joy"),
   (":*", "kissing"), (":-*", "kissing"), ("x-)", "laughing"), ("X-)", "laughing"),
   (":|", "neutral_face"), (":-|", "neutral_face"), (":o", "open_mouth"), (":-o", "open_mouth"),
   (":O", "open_mouth"), (":-O", "open_mouth"), (":@", "rage"), (":-@", "rage"), (":D", "smile"),
   (":-D", "smile"), (":)", "smiley"), (":-)", "smiley"), ("]:)", "smiling_imp"),
   ("]:-)", "smiling_imp"), (":,'(", "sob"), (":,'-(", "sob"), (";(", "sob"), (";-(", "sob"),
   (":P", "stuck_out_tongue"), (":-P", "stuck_out_tongue"), ("8-)", "sunglasses"),
   ("B-)", "sunglasses"), (",:(", "sweat"), (",:-(", "sweat"), (",:)", "sweat_smile"),
   (",:-)", "sweat_smile"), (":s", "unamused"), (":-S", "unamused"), (";)", "wink"),
   (";-)", "wink")]

/-- The shortcodes that the smileys stand for, and some others, with the code points of their
emoji. -/
def emojiTable : List (String × List Nat) :=
  [("+1", [0x1f44d]), ("-1", [0x1f44e]), ("100", [0x1f4af]), ("1st_place_medal", [0x1f947]),
   ("8ball", [0x1f3b1]), ("a", [0x1f170, 0xfe0f]), ("angry", [0x1f620]),
   ("asterisk", [0x2a, 0xfe0f, 0x20e3]), ("b", [0x1f171, 0xfe0f]), ("blush", [0x1f60a]),
   ("broken_heart", [0x1f494]), ("cat", [0x1f431]), ("confused", [0x1f615]),
   ("copyright", [0xa9, 0xfe0f]), ("cry", [0x1f622]), ("de", [0x1f1e9, 0x1f1ea]),
   ("disappointed", [0x1f61e]), ("dog", [0x1f436]), ("e-mail", [0x1f4e7]),
   ("england", [0x1f3f4, 0xe0067, 0xe0062, 0xe0065, 0xe006e, 0xe0067, 0xe007f]),
   ("eyes", [0x1f440]), ("family", [0x1f46a]),
   ("family_man_woman_girl", [0x1f468, 0x200d, 0x1f469, 0x200d, 0x1f467]), ("fire", [0x1f525]),
   ("gb", [0x1f1ec, 0x1f1e7]), ("hash", [0x23, 0xfe0f, 0x20e3]), ("hear_no_evil", [0x1f649]),
   ("heart", [0x2764, 0xfe0f]), ("heavy_check_mark", [0x2714, 0xfe0f]), ("imp", [0x1f47f]),
   ("innocent", [0x1f607]), ("joy", [0x1f602]), ("keycap_ten", [0x1f51f]),
   ("kissing", [0x1f617]), ("laughing", [0x1f606]), ("m", [0x24c2, 0xfe0f]),
   ("man_technologist", [0x1f468, 0x200d, 0x1f4bb]), ("neutral_face", [0x1f610]),
   ("non-potable_water", [0x1f6b1]), ("o", [0x2b55]), ("one", [0x31, 0xfe0f, 0x20e3]),
   ("open_mouth", [0x1f62e]), ("pirate_flag", [0x1f3f4, 0x200d, 0x2620, 0xfe0f]),
   ("point_up", [0x261d, 0xfe0f]), ("rage", [0x1f621]),
   ("rainbow_flag", [0x1f3f3, 0xfe0f, 0x200d, 0x1f308]), ("registered", [0xae, 0xfe0f]),
   ("relaxed", [0x263a, 0xfe0f]), ("rocket", [0x1f680]), ("smile", [0x1f604]),
   ("smiley", [0x1f603]), ("smiling_imp", [0x1f608]), ("snowman", [0x26c4]), ("sob", [0x1f62d]),
   ("stuck_out_tongue", [0x1f61b]), ("sunglasses", [0x1f60e]), ("sunny", [0x2600, 0xfe0f]),
   ("sweat", [0x1f613]), ("sweat_smile", [0x1f605]), ("tada", [0x1f389]),
   ("thumbsup", [0x1f44d]), ("tm", [0x2122, 0xfe0f]), ("unamused", [0x1f612]),
   ("us", [0x1f1fa, 0x1f1f8]), ("v", [0x270c, 0xfe0f]), ("warning", [0x26a0, 0xfe0f]),
   ("wave", [0x1f44b]), ("white_check_mark", [0x2705]), ("wink", [0x1f609]),
   ("woman_astronaut", [0x1f469, 0x200d, 0x1f680]), ("x", [0x274c]),
   ("zero", [0x30, 0xfe0f, 0x20e3])]

/-- The registry of `emojiTable`; it stands in where no other one is given. -/
def knownEmoji : EmojiRegistry := fun name =>
  (emojiTable.lookup name).map fun points => String.ofList (points.map Char.ofNat)

/-- Whether a character may stand in a shortcode. -/
def isShortcodeChar (c : Char) : Bool := c.isAlphanum || c == '_' || c == '+' || c == '-'

/-- An emoji found at the start of a text and the number of characters it replaces. -/
structure EmojiMatch where
  emoji : List Char
  length : Nat

/-- The shortcode between colons at the start of a text. -/
def shortcodeMatch? (registry : EmojiRegistry) : List Char → Option EmojiMatch
  | ':' :: rest =>
    let name := rest.takeWhile isShortcodeChar
    match name, rest.drop name.length with
    | _ :: _, ':' :: _ =>
      (registry (String.ofList name)).map fun emoji => ⟨emoji.toList, name.length + 2⟩
    | _, _ => none
  | _ => none

/-- The longest smiley at the start of a text, with its shortcode. -/
def longestSmiley? (cs : List Char) : Option (List Char × String) :=
  smileys.foldl (fun best (smiley, name) =>
    let found := smiley.toList
    if found.isPrefixOf cs && (best.all fun b => b.1.length ≤ found.length) then
      some (found, name)
    else
      best) none

/-- The smiley at the start of a text. -/
def smileyMatch? (registry : EmojiRegistry) (cs : List Char) : Option EmojiMatch :=
  (longestSmiley? cs).bind fun (smiley, name) =>
    (registry name).map fun emoji => ⟨emoji.toList, smiley.length⟩

/-- The shortcode or else the smiley at the start of a text. -/
def emojiMatch? (registry : EmojiRegistry) (cs : List Char) : Option EmojiMatch :=
  (shortcodeMatch? registry cs).or (smileyMatch? registry cs)

/-- Replace shortcodes and smileys; `atBoundary` tells whether one may start here. -/
def replaceEmojiChars (registry : EmojiRegistry) (atBoundary : Bool) : List Char → List Char
  | [] => []
  | c :: rest =>
    match if atBoundary then emojiMatch? registry (c :: rest) else none with
    | some found =>
      found.emoji ++ replaceEmojiChars registry false (rest.drop (found.length - 1))
    | none => c :: replaceEmojiChars registry (isSpace c) rest
  termination_by cs => cs.length

/-- The text with its shortcodes and smileys replaced; `atBoundary` tells whether white space or
nothing stands before it. -/
def replaceEmoji (registry : EmojiRegistry) (text : String) (atBoundary : Bool) : String :=
  String.ofList (replaceEmojiChars registry atBoundary text.toList)

end MarkdownSpans
