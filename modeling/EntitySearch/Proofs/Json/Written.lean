import EntitySearch.Schema.Json

/-!
# Reading what was written

`Reader.Takes` says that a reader takes a text off whatever begins with it and gives a value, so that nothing
after the text matters to the reader. Strings, truth values, lists and objects end with a character of their own.
So they are taken as `Json.compact` writes them, a list by a reader that takes its items (`takes_list`) and an
object by one that takes its members one after the other (`TakesMembers.record`).
-/

namespace EntitySearch

namespace Json

theorem compactItems_cons (item : Json) (rest : List Json) :
    compactItems (item :: rest) = item.compactChars ++ rest.flatMap fun item => ',' :: item.compactChars := by
  induction rest generalizing item with
  | nil => simp [compactItems]
  | cons next rest ih => simp [compactItems, ih]

theorem compactItems_eq_intercalate (items : List Json) :
    compactItems items = [','].intercalate (items.map compactChars) := by
  induction items with
  | nil => simp [compactItems]
  | cons item rest ih =>
    cases rest with
    | nil => simp [compactItems]
    | cons next rest => simp [compactItems, ih]

theorem compactMembers_cons (m : String × Json) (rest : List (String × Json)) :
    compactMembers (m :: rest) = quote m.1 ++ ':' :: m.2.compactChars ++
      rest.flatMap fun m => ',' :: (quote m.1 ++ ':' :: m.2.compactChars) := by
  induction rest generalizing m with
  | nil => simp [compactMembers]
  | cons next rest ih => simp [compactMembers, ih]

end Json

namespace Reader
variable {α β σ : Type} {x : Reader α} {f : α → Reader β} {a : α} {b : β} {s t : List Char} {c : Char}

/-! ### Single steps -/

theorem run_blanks (hc : isBlank c = false) : blanks.run (c :: s) = .ok ((), c :: s) := by
  change Except.ok ((), (c :: s).dropWhile isBlank) = _
  rw [List.dropWhile_cons_of_neg (by simp [hc])]

theorem run_peekVisible? (hc : isBlank c = false) : peekVisible?.run (c :: s) = .ok (some c, c :: s) := by
  rw [peekVisible?, run_bind, run_blanks hc]
  rfl

/-- The reader takes the text off whatever begins with it and gives the value. -/
def Takes (x : Reader α) (text : List Char) (a : α) : Prop := ∀ rest, x.run (text ++ rest) = .ok (a, rest)

theorem takes_pure (a : α) : (Pure.pure a : Reader α).Takes [] a := fun _ => rfl

theorem takes_next (atEnd : ReadError) (c : Char) : (next atEnd).Takes [c] c := fun _ => rfl

theorem takes_next? (c : Char) : next?.Takes [c] (some c) := fun _ => rfl

theorem Takes.bind (hx : x.Takes s a) (hf : (f a).Takes t b) : (x >>= f).Takes (s ++ t) b := by
  intro rest
  rw [List.append_assoc]
  exact run_bind_eq_ok.2 ⟨a, t ++ rest, hx _, hf rest⟩

theorem Takes.bind_pure (hx : x.Takes s a) (hf : f a = Pure.pure b) : (x >>= f).Takes s b := by
  have hb : (f a).Takes [] b := by
    rw [hf]
    exact takes_pure b
  have h := hx.bind hb
  rwa [List.append_nil] at h

theorem Takes.map (hx : x.Takes s a) (g : α → β) : (x >>= fun a => Pure.pure (g a)).Takes s (g a) :=
  hx.bind_pure rfl

theorem Takes.after_blanks {y : Unit → Reader β} (hc : isBlank c = false) (hy : (y ()).Takes (c :: t) b) :
    (blanks >>= y).Takes (c :: t) b :=
  fun rest => run_bind_eq_ok.2 ⟨(), c :: t ++ rest, run_blanks hc, hy rest⟩

theorem Takes.after_peek {y : Option Char → Reader β} (hc : isBlank c = false)
    (hy : (y (some c)).Takes (c :: t) b) : (peekVisible? >>= y).Takes (c :: t) b :=
  fun rest => run_bind_eq_ok.2 ⟨some c, c :: t ++ rest, run_peekVisible? hc, hy rest⟩

theorem Takes.after_next {y : Char → Reader β} (atEnd : ReadError) (hy : (y c).Takes t b) :
    (next atEnd >>= y).Takes (c :: t) b :=
  (takes_next atEnd c).bind hy

theorem Takes.after_next? {y : Option Char → Reader β} (hy : (y (some c)).Takes t b) :
    (next? >>= y).Takes (c :: t) b :=
  (takes_next? c).bind hy

theorem Takes.readAll (h : x.Takes s a) : x.readAll (.ofList s) = .ok a := by
  have hrun : x.run s = .ok (a, []) := by simpa using h []
  rw [Reader.readAll, String.toList_ofList, hrun]
  rfl

theorem takes_word (w : List Char) : (word w).Takes w () := by
  induction w with
  | nil => exact takes_pure ()
  | cons c rest ih =>
    refine Takes.after_next _ ?_
    rw [if_pos rfl]
    exact ih

theorem takes_colon : colon.Takes [':'] () :=
  Takes.after_blanks rfl ((takes_next _ ':').bind_pure (if_pos rfl))

/-! ### Strings -/

theorem untilQuote.go_cons {item : Char → Reader α} {as : List α} {r : List Char} (hc : c ≠ '"')
    (ha : (item c).run s = .ok (a, r)) (has : go item r = .ok (as, t)) :
    go item (c :: s) = .ok (a :: as, t) := by
  rw [go, if_neg hc]
  split
  · next h => cases ha.symm.trans h
  · next h => cases ha.symm.trans h; rw [has]

theorem takes_untilQuote {item : Char → Reader α} {write : α → List Char} {as : List α}
    (h : ∀ a ∈ as, ∃ c t, write a = c :: t ∧ c ≠ '"' ∧ (item c).Takes t a) :
    (untilQuote item).Takes (as.flatMap write ++ ['"']) as := by
  intro rest
  rw [List.append_assoc]
  change untilQuote.go item _ = _
  induction as with
  | nil =>
    rw [List.flatMap_nil, List.nil_append, List.singleton_append, untilQuote.go, if_pos rfl]
  | cons a as ih =>
    obtain ⟨c, t, hwrite, hc, ht⟩ := h a (.head _)
    rw [List.flatMap_cons, hwrite, List.append_assoc, List.cons_append]
    exact untilQuote.go_cons hc (ht _) (ih fun a ha => h a (.tail _ ha))

theorem hexValue?_digitChar {n : Nat} (h : n < 16) : hexValue? n.digitChar = some n := by
  revert n
  decide

theorem takes_hexEscape {n : Nat} (h : n < 256) : hexEscape.Takes ('0' :: '0' :: Json.hexDigits n) n := by
  intro rest
  have hzero : hexValue? '0' = some 0 := by decide
  have hhigh : hexValue? (n / 16 % 16).digitChar = some (n / 16 % 16) := hexValue?_digitChar (by omega)
  have hlow : hexValue? (n % 16).digitChar = some (n % 16) := hexValue?_digitChar (by omega)
  simp only [Json.hexDigits, List.cons_append, List.nil_append, hexEscape, hzero, hhigh, hlow,
    Except.ok.injEq, Prod.mk.injEq, and_true]
  omega

theorem takes_unicodeEscape (hc : c < ' ') : unicodeEscape.Takes ('0' :: '0' :: Json.hexDigits c.toNat) c := by
  have hn : c.toNat < 32 := hc
  have htrailing : isTrailingSurrogate c.toNat = false := by
    simp only [isTrailingSurrogate, Bool.and_eq_false_iff, decide_eq_false_iff_not]
    omega
  have hleading : isLeadingSurrogate c.toNat = false := by
    simp only [isLeadingSurrogate, Bool.and_eq_false_iff, decide_eq_false_iff_not]
    omega
  refine (takes_hexEscape (by omega)).bind_pure ?_
  simp only [htrailing, hleading, Bool.false_eq_true, if_false, Char.ofNat_toNat]

theorem takes_shortEscape {e d : Char} (escape : Reader Char) (h : shortEscape? e = some d) :
    (stringItem escape '\\').Takes [e] d := by
  refine (takes_next _ e).bind_pure ?_
  rw [h]

theorem takes_escape (c : Char) :
    ∃ d t, Json.escape c = d :: t ∧ d ≠ '"' ∧ (stringItem unicodeEscape d).Takes t c := by
  have hshort {e : Char} (h : shortEscape? e = some c) :
      ∃ d t, ['\\', e] = d :: t ∧ d ≠ '"' ∧ (stringItem unicodeEscape d).Takes t c :=
    ⟨'\\', [e], rfl, by decide, takes_shortEscape _ h⟩
  unfold Json.escape
  -- Seven characters have short escapes, which are read as the characters they were written for.
  iterate 7
    split
    · next hc => subst hc; exact hshort rfl
  split
  · next hc =>
    refine ⟨'\\', 'u' :: '0' :: '0' :: Json.hexDigits c.toNat, rfl, by decide, ?_⟩
    exact Takes.after_next _ (takes_unicodeEscape hc)
  · next hquote hbackslash _ _ _ _ _ hc =>
    refine ⟨c, [], rfl, hquote, ?_⟩
    rw [stringItem, if_neg hbackslash, if_neg hc]
    exact takes_pure c

theorem takes_stringBody (s : String) : stringBody.Takes (s.toList.flatMap Json.escape ++ ['"']) s := by
  have hchars : (untilQuote (stringItem unicodeEscape)).Takes (s.toList.flatMap Json.escape ++ ['"']) s.toList :=
    takes_untilQuote fun c _ => takes_escape c
  exact hchars.bind_pure (congrArg Pure.pure String.ofList_toList)

theorem takes_string (s : String) : string.Takes (Json.string s).compactChars s :=
  Takes.after_peek rfl (Takes.after_next? (takes_stringBody s))

theorem takes_bool (b : Bool) : bool.Takes (Json.bool b).compactChars b := by
  cases b with
  | false => exact Takes.after_peek rfl ((takes_word "false".toList).map fun _ => false)
  | true => exact Takes.after_peek rfl ((takes_word "true".toList).map fun _ => true)

/-! ### Commas and closing characters -/

section
variable {inside : Unfinished} {close : Char} {missing : ReadError}

theorem takes_close (hclose : isBlank close = false) : (comma? inside close missing).Takes [close] none :=
  Takes.after_blanks hclose ((takes_next _ close).bind_pure (if_pos rfl))

theorem Takes.after_comma {y : Option Char → Reader β} (hclose : close ≠ ',') (hc : isBlank c = false)
    (hne : c ≠ close) (hy : (y (some c)).Takes (c :: t) b) :
    (comma? inside close missing >>= y).Takes (',' :: c :: t) b := by
  intro rest
  have hcomma : (comma? inside close missing).run (',' :: c :: t ++ rest) = .ok (some c, c :: t ++ rest) := by
    refine run_bind_eq_ok.2 ⟨(), ',' :: c :: t ++ rest, run_blanks rfl, ?_⟩
    refine run_bind_eq_ok.2 ⟨',', c :: t ++ rest, rfl, ?_⟩
    rw [if_neg (Ne.symm hclose), if_pos rfl]
    refine run_bind_eq_ok.2 ⟨some c, c :: t ++ rest, run_peekVisible? hc, ?_⟩
    exact congrFun (congrArg run (if_neg hne)) _
  exact run_bind_eq_ok.2 ⟨some c, c :: t ++ rest, hcomma, hy rest⟩

end

/-! ### Lists -/

section
variable {item : Reader α} {text : α → List Char} {as : List α}

/-- The text begins with a character that is not passed over and does not end a list. -/
def Opens (text : List Char) : Prop := ∃ c t, text = c :: t ∧ isBlank c = false ∧ c ≠ ']'

theorem opens_object (ms : List (String × Json)) : Opens (Json.object ms).compactChars := by
  rw [Json.compactChars]
  exact ⟨'\x7b', _, rfl, rfl, by decide⟩

theorem Takes.firstItem? (h : item.Takes s a) (hs : Opens s) : (firstItem? item).Takes s (some a) := by
  obtain ⟨c, t, rfl, hc, hne⟩ := hs
  refine Takes.after_peek hc ?_
  split
  · next heq => cases heq
  · next heq => exact absurd (Option.some.inj heq) hne
  · exact h.map some

theorem Takes.laterItem? (h : item.Takes s a) (hs : Opens s) : (laterItem? item).Takes (',' :: s) (some a) := by
  obtain ⟨c, t, rfl, hc, hne⟩ := hs
  exact Takes.after_comma (by decide) hc hne (h.map some)

theorem moreItems.go_last (h : (Reader.laterItem? item).run s = .ok (none, t)) : go item s = .ok ([], t) := by
  rw [go]
  split
  · next h' => cases h.symm.trans h'
  · next h' => cases h.symm.trans h'; rfl
  · next h' => cases h.symm.trans h'

theorem moreItems.go_cons {r : List Char} (h : (Reader.laterItem? item).run s = .ok (some a, r))
    (has : go item r = .ok (as, t)) : go item s = .ok (a :: as, t) := by
  rw [go]
  split
  · next h' => cases h.symm.trans h'
  · next h' => cases h.symm.trans h'
  · next h' => cases h.symm.trans h'; rw [has]

theorem takes_moreItems (h : ∀ a ∈ as, item.Takes (text a) a) (hopens : ∀ a ∈ as, Opens (text a)) :
    (moreItems item).Takes (as.flatMap (fun a => ',' :: text a) ++ [']']) as := by
  intro rest
  rw [List.append_assoc]
  change moreItems.go item _ = _
  induction as with
  | nil =>
    have hclose : (laterItem? item).Takes [']'] none := (takes_close rfl).bind_pure rfl
    exact moreItems.go_last (hclose rest)
  | cons a as ih =>
    have hlater := ih (fun a ha => h a (.tail _ ha)) fun a ha => hopens a (.tail _ ha)
    rw [List.flatMap_cons, List.append_assoc]
    exact moreItems.go_cons ((h a (.head _)).laterItem? (hopens a (.head _)) _) hlater

theorem takes_list {write : α → Json} (h : ∀ a ∈ as, item.Takes (write a).compactChars a)
    (hopens : ∀ a ∈ as, Opens (write a).compactChars) :
    (list item).Takes (Json.array (as.map write)).compactChars as := by
  have hitems : (items item).Takes (Json.compactItems (as.map write) ++ [']']) as := by
    cases as with
    | nil =>
      have hclose : (firstItem? item).Takes [']'] none := Takes.after_peek rfl ((takes_next? ']').map fun _ => none)
      exact hclose.bind_pure rfl
    | cons a as =>
      have hmore := takes_moreItems (fun a ha => h a (.tail _ ha)) fun a ha => hopens a (.tail _ ha)
      rw [List.map_cons, Json.compactItems_cons, List.flatMap_map, List.append_assoc]
      exact ((h a (.head _)).firstItem? (hopens a (.head _))).bind (hmore.map (a :: ·))
  rw [Json.compactChars, List.cons_append]
  exact Takes.after_peek rfl (Takes.after_next? hitems)

end

/-! ### Objects -/

/-- What `member` does with the members in turn takes the one state to the other. -/
inductive TakesMembers (member : σ → String → Reader σ) : σ → List (String × Json) → σ → Prop
  | nil {state} : TakesMembers member state [] state
  | cons {state name value state' ms out} (h : (member state name).Takes (':' :: value.compactChars) state')
      (later : TakesMembers member state' ms out) : TakesMembers member state ((name, value) :: ms) out

section
variable {member : σ → String → Reader σ} {state out : σ} {ms : List (String × Json)}

theorem takes_firstKey? (name : String) : (firstKey? stringBody).Takes (Json.quote name) (some name) :=
  Takes.after_blanks rfl (Takes.after_next _ ((takes_stringBody name).map some))

theorem takes_laterKey? (name : String) : (laterKey? stringBody).Takes (',' :: Json.quote name) (some name) :=
  Takes.after_comma (by decide) rfl (by decide) (Takes.after_next? ((takes_stringBody name).map some))

theorem moreMembers.go_last {key : Reader String} (h : (laterKey? key).run s = .ok (none, t)) :
    go key member state s = .ok (state, t) := by
  rw [go]
  split
  · next h' => cases h.symm.trans h'
  · next h' => cases h.symm.trans h'; rfl
  · next h' => cases h.symm.trans h'

theorem moreMembers.go_cons {key : Reader String} {name : String} {r u : List Char} {state' : σ}
    (h : (laterKey? key).run s = .ok (some name, r)) (hm : (member state name).run r = .ok (state', u)) :
    go key member state s = go key member state' u := by
  rw [go]
  split
  · next h' => cases h.symm.trans h'
  · next h' => cases h.symm.trans h'
  · next h' =>
    cases h.symm.trans h'
    split
    · next h' => cases hm.symm.trans h'
    · next h' => cases hm.symm.trans h'; rfl

theorem TakesMembers.moreMembers (h : TakesMembers member state ms out) :
    (moreMembers stringBody member state).Takes
      (ms.flatMap (fun m => ',' :: (Json.quote m.1 ++ ':' :: m.2.compactChars)) ++ ['\x7d']) out := by
  intro rest
  rw [List.append_assoc]
  change moreMembers.go stringBody member _ _ = _
  induction h with
  | nil =>
    have hclose : (laterKey? stringBody).Takes ['\x7d'] none := (takes_close rfl).bind_pure rfl
    exact moreMembers.go_last (hclose rest)
  | cons hmember _ ih =>
    rw [List.flatMap_cons, ← List.cons_append, List.append_assoc, List.append_assoc,
      moreMembers.go_cons (takes_laterKey? _ _) (hmember _)]
    exact ih

theorem TakesMembers.members (h : TakesMembers member state ms out) :
    (members stringBody member state).Takes (Json.compactMembers ms ++ ['\x7d']) out := by
  cases h with
  | nil =>
    have hclose : (firstKey? stringBody).Takes ['\x7d'] none :=
      Takes.after_blanks rfl ((takes_next _ '\x7d').bind_pure rfl)
    exact hclose.bind_pure rfl
  | cons hmember later =>
    rw [Json.compactMembers_cons, List.append_assoc, List.append_assoc]
    exact (takes_firstKey? _).bind (hmember.bind later.moreMembers)

/-- An object is taken if its members are and what they leave can be finished. -/
theorem TakesMembers.record {expected : String} {asList : Reader α} {finish : σ → Except ReadError α}
    (h : TakesMembers member state ms out) (hfinish : finish out = .ok a) :
    (record expected asList member state finish).Takes (Json.object ms).compactChars a := by
  rw [Json.compactChars, List.cons_append]
  refine Takes.after_peek rfl (Takes.after_next? (h.members.bind_pure ?_))
  rw [hfinish]

theorem takes_member {name : String} {value : Reader α} (h : value.Takes s a) :
    (Reader.member name none value).Takes (':' :: s) a :=
  takes_colon.bind h

end

end Reader

end EntitySearch
