import Mathlib
import MarkdownSpans.Proofs.Text.EmojiSplit

/-!
# Replacing emoji word by word

A text consists of maximal runs of white space and of other characters, its words. Replacing emoji
rewrites each word by itself: the longest shortcode or smiley that the word starts with gives way to
its emoji (`WordReplaced`), and all else stays (`replaceEmoji_eq_iff`). That the scanner tries
shortcodes before smileys makes no difference, since no smiley is as long as a shortcode at the same
place.
-/

namespace MarkdownSpans

/-! ### Candidates -/

/-- A spelling that stands for an emoji: the name of a known emoji between colons, or a smiley. -/
inductive EmojiCandidate (registry : EmojiRegistry) : List Char → List Char → Prop where
  | shortcode {name : List Char} {emoji : String} (nonempty : name ≠ [])
    (chars : ∀ c ∈ name, isShortcodeChar c = true)
    (known : registry (String.ofList name) = some emoji) :
    EmojiCandidate registry (':' :: (name ++ [':'])) emoji.toList
  | smiley {smiley name emoji : String} (mem : (smiley, name) ∈ smileys)
    (known : registry name = some emoji) :
    EmojiCandidate registry smiley.toList emoji.toList

/-- The longest candidate that a word starts with. -/
structure LongestCandidate (registry : EmojiRegistry) (word spelling emoji : List Char) : Prop where
  candidate : EmojiCandidate registry spelling emoji
  isPrefix : spelling <+: word
  longest : ∀ other emoji', EmojiCandidate registry other emoji' → other <+: word →
    other.length ≤ spelling.length

/-- A word is rewritten: the longest candidate that it starts with gives way to its emoji. -/
inductive WordReplaced (registry : EmojiRegistry) : List Char → List Char → Prop where
  | replaced {spelling emoji rest : List Char}
    (h : LongestCandidate registry (spelling ++ rest) spelling emoji) :
    WordReplaced registry (spelling ++ rest) (emoji ++ rest)
  | kept {word : List Char}
    (h : ∀ spelling emoji, EmojiCandidate registry spelling emoji → ¬spelling <+: word) :
    WordReplaced registry word word

/-- The maximal runs of white space and of other characters. -/
def wordRuns (cs : List Char) : List (List Char) := cs.splitBy fun a b => isSpace a == isSpace b

/-- A text is rewritten run by run: each word is, unless it is the first run and no emoji may start
there, and nothing else. -/
def RunsReplaced (registry : EmojiRegistry) (atBoundary : Bool) (cs result : List Char) : Prop :=
  ∃ pieces : List (List Char), pieces.flatten = result ∧ pieces.length = (wordRuns cs).length ∧
    ∀ i run piece, (wordRuns cs)[i]? = some run → pieces[i]? = some piece →
      if Solid run ∧ (i = 0 → atBoundary = true) then WordReplaced registry run piece
      else piece = run

/-- Behind its first character no smiley has a colon if it starts with one. -/
theorem smileys_colon :
    ∀ e ∈ smileys, e.1.toList.head? = some ':' → ':' ∉ e.1.toList.tail := by
  decide +kernel

variable {registry : EmojiRegistry} {w cs : List Char} {m : EmojiMatch}

/-- A smiley is shorter than every shortcode that stands at the same place. -/
theorem length_smiley_lt {smiley name : String} (mem : (smiley, name) ∈ smileys)
    {code rest : List Char} (hsmiley : smiley.toList <+: ':' :: (code ++ ':' :: rest)) :
    smiley.toList.length < code.length + 2 := by
  by_contra hlonger
  have whole : ':' :: (code ++ [':']) <+: ':' :: (code ++ ':' :: rest) := ⟨rest, by simp⟩
  obtain ⟨more, hmore⟩ : ':' :: (code ++ [':']) <+: smiley.toList :=
    List.prefix_of_prefix_length_le whole hsmiley (by simp; omega)
  have colon := smileys_colon _ mem
  simp only [← hmore] at colon
  exact colon rfl (by simp)

namespace EmojiCandidate

variable {spelling emoji emoji' : List Char}

/-- A spelling stands for one emoji. -/
theorem emoji_unique (h : EmojiCandidate registry spelling emoji)
    (h' : EmojiCandidate registry spelling emoji') : emoji = emoji' := by
  -- A shortcode is no smiley, since a smiley would be shorter.
  have apart {name : List Char} {smiley short : String} (mem : (smiley, short) ∈ smileys)
      (heq : ':' :: (name ++ [':']) = smiley.toList) : False := by
    have stands : smiley.toList <+: ':' :: (name ++ ':' :: []) := by rw [← heq]
    have lt := length_smiley_lt mem stands
    rw [← heq] at lt
    simp at lt
  generalize hs : spelling = other at h'
  cases h with
  | shortcode nonempty chars known =>
    cases h' with
    | shortcode nonempty' chars' known' =>
      obtain rfl := List.append_cancel_right (List.cons.inj hs).2
      rw [Option.some.inj (known.symm.trans known')]
    | smiley mem' known' => exact (apart mem' hs).elim
  | smiley mem known =>
    cases h' with
    | shortcode => exact (apart mem hs.symm).elim
    | smiley mem' known' =>
      obtain ⟨-, rfl⟩ := Prod.mk.inj
        (List.inj_on_of_nodup_map smileys_nodup mem mem' (String.toList_inj.1 hs))
      rw [Option.some.inj (known.symm.trans known')]

theorem ne_nil (h : EmojiCandidate registry spelling emoji) : spelling ≠ [] := by
  cases h with
  | shortcode => exact List.cons_ne_nil _ _
  | smiley mem => exact (smileys_solid _ mem).1

end EmojiCandidate

/-- A word is rewritten in one way. -/
theorem WordReplaced.unique {word piece piece' : List Char}
    (h : WordReplaced registry word piece) (h' : WordReplaced registry word piece') :
    piece = piece' := by
  generalize hw : word = other at h'
  cases h with
  | @replaced spelling emoji rest h =>
    cases h' with
    | @replaced spelling' emoji' rest' h' =>
      have length : spelling.length = spelling'.length :=
        Nat.le_antisymm (h'.longest _ _ h.candidate (hw ▸ List.prefix_append _ _))
          (h.longest _ _ h'.candidate (hw.symm ▸ List.prefix_append _ _))
      obtain ⟨rfl, rfl⟩ := List.append_inj hw length
      rw [h.candidate.emoji_unique h'.candidate]
    | kept h' => exact absurd (hw ▸ List.prefix_append _ _) (h' _ _ h.candidate)
  | kept h =>
    cases h' with
    | replaced h' => exact absurd (hw.symm ▸ List.prefix_append _ _) (h _ _ h'.candidate)
    | kept => exact hw

/-! ### Matches -/

/-- What is matched is the longest candidate at the start of the text. -/
theorem exists_longestCandidate (h : emojiMatch? registry cs = some m) :
    ∃ spelling, spelling.length = m.length ∧ LongestCandidate registry cs spelling m.emoji := by
  rcases Option.or_eq_some_iff.1 h with hcode | ⟨hnone, hsmiley⟩
  · obtain ⟨name, rest, emoji, hne, hname, rfl, hemoji, rfl⟩ := shortcodeMatch?_eq_some_iff.1 hcode
    refine ⟨':' :: (name ++ [':']), by simp, .shortcode hne hname hemoji, ⟨rest, by simp⟩, ?_⟩
    intro other emoji' hother hstart
    cases hother with
    | @shortcode name' emoji' hne' hname' hemoji' =>
      obtain ⟨rest', hrest'⟩ := hstart
      have hcut : ':' :: (name ++ ':' :: rest) = ':' :: (name' ++ ':' :: rest') := by
        rw [← hrest']
        simp
      have hcode' := shortcodeMatch?_eq_some_iff.2
        ⟨name', rest', emoji', hne', hname', hcut, hemoji', rfl⟩
      have same : name.length + 2 = name'.length + 2 :=
        congrArg EmojiMatch.length (Option.some.inj (hcode.symm.trans hcode'))
      simp
      omega
    | smiley mem =>
      have shorter := length_smiley_lt mem hstart
      simp
      omega
  · obtain ⟨smiley, name, emoji, hbest, hemoji, rfl⟩ := smileyMatch?_eq_some_iff.1 hsmiley
    have found := foundSmiley_longestSmiley? cs
    rw [hbest] at found
    obtain ⟨⟨e, he, rfl, rfl⟩, hstart, hlongest⟩ := found
    refine ⟨e.1.toList, rfl, .smiley he hemoji, hstart, fun other emoji' hother hstart' => ?_⟩
    cases hother with
    | @shortcode name' emoji' hne' hname' hemoji' =>
      obtain ⟨rest', hrest'⟩ := hstart'
      rw [shortcodeMatch?_eq_some_iff.2
        ⟨name', rest', emoji', hne', hname', by simp [← hrest'], hemoji', rfl⟩] at hnone
      cases hnone
    | smiley mem' => exact hlongest _ mem' hstart'

/-- Where nothing is matched, no candidate stands. -/
theorem not_prefix_of_emojiMatch?_eq_none (hknown : registry.KnowsSmileys)
    (h : emojiMatch? registry cs = none) {spelling emoji : List Char}
    (hcandidate : EmojiCandidate registry spelling emoji) : ¬spelling <+: cs := by
  obtain ⟨hcode, hsmiley⟩ := Option.or_eq_none_iff.1 h
  intro hstart
  cases hcandidate with
  | @shortcode name emoji hne hname hemoji =>
    obtain ⟨rest, hrest⟩ := hstart
    rw [shortcodeMatch?_eq_some_iff.2
      ⟨name, rest, emoji, hne, hname, by simp [← hrest], hemoji, rfl⟩] at hcode
    cases hcode
  | smiley mem =>
    have found := foundSmiley_longestSmiley? cs
    rw [hknown.smileyMatch?_eq_none_iff.1 hsmiley] at found
    exact found _ mem hstart

/-- **A word where an emoji may start is replaced.** -/
theorem wordReplaced_replaceEmojiChars (hknown : registry.KnowsSmileys) (hw : Solid w) :
    WordReplaced registry w (replaceEmojiChars registry true w) := by
  cases hm : emojiMatch? registry w with
  | none =>
    have none_here := WordReplaced.kept fun _ _ => not_prefix_of_emojiMatch?_eq_none hknown hm
    cases w with
    | nil => rwa [replaceEmojiChars_nil]
    | cons c rest =>
      obtain ⟨hc, hrest⟩ := List.forall_mem_cons.1 hw
      rwa [replaceEmojiChars_cons_of_none fun _ => hm, hc, replaceEmojiChars_of_solid hrest]
  | some m =>
    obtain ⟨spelling, hlength, hlongest⟩ := exists_longestCandidate hm
    obtain ⟨rest, rfl⟩ := hlongest.isPrefix
    have hrest : Solid rest := fun c hc => hw c (List.mem_append_right _ hc)
    rw [replaceEmojiChars_of_match hm hlength hlongest.candidate.ne_nil,
      replaceEmojiChars_of_solid hrest]
    exact .replaced hlongest

/-! ### Runs -/

/-- A run is a word, or all of it is white space. -/
theorem solid_or_space_of_mem_wordRuns {run : List Char} (h : run ∈ wordRuns cs) :
    Solid run ∨ ∀ c ∈ run, isSpace c = true := by
  obtain ⟨c, rest, rfl⟩ := List.exists_cons_of_ne_nil (List.ne_nil_of_mem_splitBy h)
  have alike : ∀ d ∈ c :: rest, isSpace d = isSpace c := by
    have chain : (c :: rest).IsChain fun a b => isSpace a = isSpace b :=
      (List.isChain_of_mem_splitBy h).imp fun _ _ hab => beq_iff_eq.1 hab
    have pairwise := List.pairwise_cons.1 (List.isChain_iff_pairwise.1 chain)
    exact List.forall_mem_cons.2 ⟨rfl, fun d hd => (pairwise.1 d hd).symm⟩
  cases hc : isSpace c with
  | false => exact .inl fun d hd => (alike d hd).trans hc
  | true => exact .inr fun d hd => (alike d hd).trans hc

/-- White space stays, and an emoji may start behind it. -/
theorem replaceEmojiChars_space (hknown : registry.KnowsSmileys) (p : Bool) {s : Char}
    {spaces : List Char} (h : ∀ c ∈ s :: spaces, isSpace c = true) (b : List Char) :
    replaceEmojiChars registry p (s :: spaces ++ b) =
      s :: spaces ++ replaceEmojiChars registry true b := by
  induction spaces generalizing s p with
  | nil =>
    have first := replaceEmojiChars_append_space (a := []) (b := b) hknown (h s (.head _)) p
    rwa [replaceEmojiChars_nil] at first
  | cons s' rest ih =>
    obtain ⟨hs, hrest⟩ := List.forall_mem_cons.1 h
    have first := replaceEmojiChars_append_space (a := []) (b := s' :: rest ++ b) hknown hs p
    rw [replaceEmojiChars_nil, ih true hrest] at first
    exact first

/-- A run is rewritten by itself, whatever stands behind it. -/
theorem replaceEmojiChars_append_run (hknown : registry.KnowsSmileys) (p : Bool)
    {run rest : List Char} (hrun : Solid run ∨ ∀ c ∈ run, isSpace c = true)
    (hnext : Solid run → ∀ c ∈ rest.head?, isSpace c = true) (hne : run ≠ []) :
    replaceEmojiChars registry p (run ++ rest) =
      replaceEmojiChars registry p run ++ replaceEmojiChars registry true rest := by
  rcases hrun with hword | hspace
  · cases rest with
    | nil => rw [replaceEmojiChars_nil, List.append_nil, List.append_nil]
    | cons s tail =>
      have hs : isSpace s = true := hnext hword s rfl
      have space : ∀ c ∈ [s], isSpace c = true := List.forall_mem_singleton.2 hs
      have behind := replaceEmojiChars_space hknown true space tail
      rw [replaceEmojiChars_append_space hknown hs]
      exact congrArg _ behind.symm
  · obtain ⟨s, spaces, rfl⟩ := List.exists_cons_of_ne_nil hne
    have alone := replaceEmojiChars_space hknown p hspace []
    rw [List.append_nil, replaceEmojiChars_nil, List.append_nil] at alone
    rw [replaceEmojiChars_space hknown p hspace, alone]

/-- Runs are rewritten one by one; an emoji may start in each but the first, if it may not start
before that one. -/
theorem replaceEmojiChars_flatten (hknown : registry.KnowsSmileys) (p : Bool)
    {rs : List (List Char)} (hrs : ∀ run ∈ rs, Solid run ∨ ∀ c ∈ run, isSpace c = true)
    (hchain : rs.IsChain fun a b =>
      ∃ ha hb, (isSpace (a.getLast ha) == isSpace (b.head hb)) = false) (hne : [] ∉ rs) :
    replaceEmojiChars registry p rs.flatten =
      (rs.mapIdx fun i run => replaceEmojiChars registry (i != 0 || p) run).flatten := by
  induction rs generalizing p with
  | nil => exact replaceEmojiChars_nil p
  | cons run rest ih =>
    obtain ⟨hrun, hrest⟩ := List.forall_mem_cons.1 hrs
    obtain ⟨hrun_ne, hrest_ne⟩ := not_or.1 (mt List.mem_cons.2 hne)
    have behind := ih true hrest hchain.tail hrest_ne
    have next : Solid run → ∀ c ∈ rest.flatten.head?, isSpace c = true := by
      intro hword c hc
      cases rest with
      | nil => cases hc
      | cons after more =>
        obtain ⟨last, first, differ⟩ := (List.isChain_cons_cons.1 hchain).1
        obtain ⟨d, tail, rfl⟩ := List.exists_cons_of_ne_nil first
        obtain rfl : d = c := by simpa using hc
        rw [hword _ (List.getLast_mem last)] at differ
        simpa using differ
    rw [List.flatten_cons, replaceEmojiChars_append_run hknown p hrun next (Ne.symm hrun_ne),
      behind]
    simp [List.mapIdx_cons]

/-- **Replacing emoji rewrites a text run by run.** -/
theorem runsReplaced_replaceEmojiChars (hknown : registry.KnowsSmileys) (p : Bool)
    (cs : List Char) : RunsReplaced registry p cs (replaceEmojiChars registry p cs) := by
  refine ⟨(wordRuns cs).mapIdx fun i run => replaceEmojiChars registry (i != 0 || p) run, ?_,
    List.length_mapIdx, ?_⟩
  · rw [← replaceEmojiChars_flatten hknown p (fun run h => solid_or_space_of_mem_wordRuns h)
      (List.isChain_getLast_head_splitBy (fun a b => isSpace a == isSpace b) cs)
      (List.nil_notMem_splitBy _ cs), wordRuns, List.flatten_splitBy]
  · intro i run piece hrun hpiece
    obtain rfl : replaceEmojiChars registry (i != 0 || p) run = piece := by
      simpa [List.getElem?_mapIdx, hrun] using hpiece
    split
    next h =>
      obtain ⟨hword, hboundary⟩ := h
      have boundary : (i != 0 || p) = true := by
        by_cases hi : i = 0 <;> simp [hi, hboundary]
      rw [boundary]
      exact wordReplaced_replaceEmojiChars hknown hword
    next h =>
      have hmem : run ∈ wordRuns cs := List.mem_of_getElem? hrun
      by_cases hword : Solid run
      · -- The run is a word at the start of the text, where no emoji may start.
        obtain ⟨rfl, hp⟩ : i = 0 ∧ p = false := by simpa [hword] using h
        rw [hp]
        exact replaceEmojiChars_of_solid hword
      · have hspace := (solid_or_space_of_mem_wordRuns hmem).resolve_left hword
        obtain ⟨s, spaces, rfl⟩ := List.exists_cons_of_ne_nil (List.ne_nil_of_mem_splitBy hmem)
        have alone := replaceEmojiChars_space hknown (i != 0 || p) hspace []
        rwa [List.append_nil, replaceEmojiChars_nil, List.append_nil] at alone

/-- There is one way to rewrite a text run by run. -/
theorem RunsReplaced.unique {p : Bool} {result result' : List Char}
    (h : RunsReplaced registry p cs result) (h' : RunsReplaced registry p cs result') :
    result = result' := by
  obtain ⟨pieces, rfl, hlength, hpieces⟩ := h
  obtain ⟨pieces', rfl, hlength', hpieces'⟩ := h'
  refine congrArg List.flatten (List.ext_getElem (hlength.trans hlength'.symm) fun i hi hi' => ?_)
  have hrun : (wordRuns cs)[i]? = some (wordRuns cs)[i] := List.getElem?_eq_getElem (hlength ▸ hi)
  have first := hpieces i _ _ hrun (List.getElem?_eq_getElem hi)
  have second := hpieces' i _ _ hrun (List.getElem?_eq_getElem hi')
  split at first
  next h =>
    rw [if_pos h] at second
    exact first.unique second
  next h =>
    rw [if_neg h] at second
    exact first.trans second.symm

/-- **Emoji are replaced word by word.** If the emoji of every smiley is known, replacing emoji
gives the text in which each word, unless it is the first run and no emoji may start there, has the
longest candidate that it starts with replaced, and which is the same everywhere else. -/
theorem replaceEmoji_eq_iff (hknown : registry.KnowsSmileys) (text : String) (atBoundary : Bool)
    (result : String) :
    replaceEmoji registry text atBoundary = result ↔
      RunsReplaced registry atBoundary text.toList result.toList := by
  have replaced := runsReplaced_replaceEmojiChars hknown atBoundary text.toList
  rw [replaceEmoji, ← String.toList_inj, String.toList_ofList]
  exact ⟨fun h => h ▸ replaced, replaced.unique⟩

/-- A smiley inside a shortcode, a shortcode with more of a word behind it, one that is not known
and one at the start of a text that goes on with a word. -/
theorem replaceEmoji_eq_iff_words :
    knownEmoji.KnowsSmileys ∧
      RunsReplaced knownEmoji false ":)\u2003:-1: :o:) :-)) :nobody:\n:'(".toList
        ":)\u2003👎 ⭕) 😃) :nobody:\n😢".toList :=
  ⟨knowsSmileys_knownEmoji, (replaceEmoji_eq_iff knowsSmileys_knownEmoji _ _ _).1 (by cbv)⟩

end MarkdownSpans
