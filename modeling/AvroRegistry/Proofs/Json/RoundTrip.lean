import AvroRegistry.Proofs.Json.Arranged
import AvroRegistry.Proofs.Json.Numerals
import AvroRegistry.Proofs.Json.Quoted

/-!
# Written values read back

A value that is written in one of the layouts is read back with its members in the order of the
layout, if no key occurs twice, its integers are not too long and its real numbers read back one by
one (`decode_encode`). Reading goes along the written parts: `readItems_written` and
`readMembers_written` say what it does with a list of them, given what it does with each.
-/

namespace AvroRegistry.Json

/-! ## Layouts -/

/-- A layout that puts only blanks beside commas, colons and brackets. -/
structure Layout.Standard (l : Layout) : Prop where
  comma : ∃ gaps, l.comma = ',' :: gaps ∧ ∀ c ∈ gaps, isGap c = true
  colon : ∃ gaps, l.colon = ':' :: gaps ∧ ∀ c ∈ gaps, isGap c = true
  newline : ∀ depth, ∀ c ∈ l.newline depth, isGap c = true

theorem compact_standard : compact.Standard where
  comma := ⟨[], rfl, nofun⟩
  colon := ⟨[], rfl, nofun⟩
  newline _ := nofun

theorem spaced_standard : spaced.Standard where
  comma := ⟨[' '], rfl, forall_mem_of_all (by decide)⟩
  colon := ⟨[' '], rfl, forall_mem_of_all (by decide)⟩
  newline _ := nofun

theorem skipGaps_append {gaps : List Char} (blank : ∀ c ∈ gaps, isGap c = true)
    (cs : List Char) : skipGaps (gaps ++ cs) = skipGaps cs :=
  List.dropWhile_append_of_pos blank

theorem skipGaps_cons {c : Char} (solid : isGap c = false) (rest : List Char) :
    skipGaps (c :: rest) = c :: rest := by
  unfold skipGaps
  rw [List.dropWhile_cons, solid]
  rfl

theorem delimits_of_isGap {c : Char} (gap : isGap c = true) : c ∈ delimiters := by
  have : ((c = ' ' ∨ c = '\t') ∨ c = '\n') ∨ c = '\r' := by simpa [isGap] using gap
  rcases this with ((rfl | rfl) | rfl) | rfl <;> decide

/-- Blanks and then a delimiter can stand behind a value. -/
theorem ends_append {gaps : List Char} (blank : ∀ c ∈ gaps, isGap c = true) {rest : List Char}
    (ends : Ends rest) : Ends (gaps ++ rest) := by
  cases gaps with
  | nil => exact ends
  | cons c gaps => exact ends_cons (delimits_of_isGap (blank c List.mem_cons_self))

/-! ## Where a value begins -/

/-- Whether a text begins with a character that a value can begin with: no blank, no closing bracket
and no byte order mark. -/
def BeginsValue (cs : List Char) : Prop :=
  ∃ c rest, cs = c :: rest ∧ isGap c = false ∧ c ≠ ']' ∧ c ≠ '}' ∧ c ≠ '\ufeff'

/-! ## What follows an item -/

variable {l : Layout}

/-- What a layout writes behind the first item between brackets. -/
def continued (l : Layout) (depth : Nat) (closing : Char) (items : List (List Char)) : List Char :=
  items.flatMap (fun item => l.comma ++ l.newline (depth + 1) ++ item) ++ l.newline depth ++
    [closing]

theorem bracket_cons (depth : Nat) (opening closing : Char) (first : List Char)
    (rest : List (List Char)) :
    bracket l depth opening closing (first :: rest) =
      opening :: (l.newline (depth + 1) ++ (first ++ continued l depth closing rest)) := by
  simp [bracket, continued]

theorem continued_cons (depth : Nat) (closing : Char) (item : List Char)
    (rest : List (List Char)) :
    continued l depth closing (item :: rest) =
      l.comma ++ (l.newline (depth + 1) ++ (item ++ continued l depth closing rest)) := by
  simp [continued]

theorem continued_nil (depth : Nat) (closing : Char) :
    continued l depth closing [] = l.newline depth ++ [closing] := by
  simp [continued]

theorem ends_continued (standard : l.Standard) (depth : Nat) {closing : Char}
    (delimits : closing ∈ delimiters) (items : List (List Char)) (tail : List Char) :
    Ends (continued l depth closing items ++ tail) := by
  cases items with
  | nil =>
    rw [continued_nil, List.append_assoc]
    exact ends_append (standard.newline depth) (ends_cons delimits)
  | cons item rest =>
    obtain ⟨gaps, comma, -⟩ := standard.comma
    rw [continued_cons, comma]
    exact ends_cons (by decide)

/-- Behind the last item there is the closing bracket, ... -/
theorem skipGaps_continued_nil (standard : l.Standard) (depth : Nat) {closing : Char}
    (solid : isGap closing = false) (tail : List Char) :
    skipGaps (continued l depth closing [] ++ tail) = closing :: tail := by
  rw [continued_nil, List.append_assoc, skipGaps_append (standard.newline depth)]
  exact skipGaps_cons solid tail

/-- ... and behind any other one a comma and the next item. -/
theorem skipGaps_continued_cons (standard : l.Standard) (depth : Nat) (closing : Char)
    {item : List Char} (begins : BeginsValue item) (rest : List (List Char)) (tail : List Char) :
    ∃ gaps, skipGaps (continued l depth closing (item :: rest) ++ tail) = ',' :: gaps ∧
      skipGaps gaps = item ++ (continued l depth closing rest ++ tail) := by
  obtain ⟨gaps, comma, blank⟩ := standard.comma
  obtain ⟨c, more, rfl, solid, -⟩ := begins
  rw [continued_cons, comma]
  simp only [List.append_assoc, List.cons_append]
  refine ⟨_, skipGaps_cons rfl _, ?_⟩
  rw [skipGaps_append blank, skipGaps_append (standard.newline _), skipGaps_cons solid]

/-! ## Lists of written parts -/

/-- What reading a written value comes to, in front of anything that can stand behind it. -/
def ReadsAs (l : Layout) (depth : Nat) (v w : Json) : Prop :=
  ∀ fuel tail, 2 * (write l depth v).length ≤ fuel → Ends tail →
    readValue fuel (write l depth v ++ tail) = .ok (w, tail)

theorem readItems_last {fuel : Nat} {cs rest tail : List Char} {v : Json}
    (value : readValue fuel cs = .ok (v, rest)) (closed : skipGaps rest = ']' :: tail) :
    readItems (fuel + 1) cs = .ok ([v], tail) := by
  simp [readItems, value, closed]

theorem readItems_next {fuel : Nat} {cs rest more tail : List Char} {v : Json} {items : List Json}
    (value : readValue fuel cs = .ok (v, rest)) (comma : skipGaps rest = ',' :: more)
    (others : readItems fuel (skipGaps more) = .ok (items, tail)) :
    readItems (fuel + 1) cs = .ok (v :: items, tail) := by
  simp [readItems, value, comma, others]

/-- Items that are read one by one are read one after the other. -/
theorem readItems_written (standard : l.Standard) (depth : Nat) (f : Json → Json) (v : Json)
    (rest : List Json) (begins : ∀ w ∈ v :: rest, BeginsValue (write l (depth + 1) w))
    (each : ∀ w ∈ v :: rest, ReadsAs l (depth + 1) w (f w)) (fuel : Nat) (tail : List Char)
    (enough : 2 * (write l (depth + 1) v ++
      continued l depth ']' (rest.map (write l (depth + 1)))).length ≤ fuel) :
    readItems fuel (write l (depth + 1) v ++
        (continued l depth ']' (rest.map (write l (depth + 1))) ++ tail)) =
      .ok ((v :: rest).map f, tail) := by
  induction rest generalizing v fuel with
  | nil =>
    rw [List.map_nil, continued_nil] at enough
    simp only [List.length_append, List.length_singleton] at enough
    obtain ⟨fuel, rfl⟩ : ∃ n, fuel = n + 1 := ⟨fuel - 1, by omega⟩
    refine readItems_last ?_ (skipGaps_continued_nil standard depth rfl tail)
    exact each v List.mem_cons_self fuel _ (by omega)
      (ends_continued standard depth (by decide) _ tail)
  | cons w rest ih =>
    rw [List.map_cons, continued_cons] at enough
    simp only [List.length_append] at enough
    obtain ⟨gaps, comma, -⟩ := standard.comma
    rw [comma, List.length_cons] at enough
    obtain ⟨fuel, rfl⟩ : ∃ n, fuel = n + 1 := ⟨fuel - 1, by omega⟩
    obtain ⟨more, found, next⟩ := skipGaps_continued_cons standard depth ']'
      (begins w (List.mem_cons_of_mem _ List.mem_cons_self)) (rest.map (write l (depth + 1))) tail
    refine readItems_next (each v List.mem_cons_self fuel _ (by omega)
      (ends_continued standard depth (by decide) _ tail)) found ?_
    rw [next]
    refine ih w (fun u mem => begins u (List.mem_cons_of_mem _ mem))
      (fun u mem => each u (List.mem_cons_of_mem _ mem)) fuel ?_
    rw [List.length_append]
    omega

/-! ## Lists of written members -/

/-- The text of a member. -/
def memberText (l : Layout) (depth : Nat) (m : String × Json) : List Char :=
  writtenMember l (m.1, write l depth m.2)

theorem memberText_eq (depth : Nat) (m : String × Json) :
    memberText l depth m =
      '"' :: (m.1.toList.flatMap escapeChar ++ '"' :: (l.colon ++ write l depth m.2)) := by
  simp [memberText, writtenMember, quoted]

theorem beginsValue_memberText (depth : Nat) (m : String × Json) :
    BeginsValue (memberText l depth m) := by
  rw [memberText_eq]
  exact ⟨'"', _, rfl, by decide⟩

theorem insert_new {key : String} {v : Json} {members : List (String × Json)}
    (new : key ∉ keys members) : insert key v members = members ++ [(key, v)] := by
  induction members with
  | nil => rfl
  | cons m rest ih =>
    obtain ⟨k, w⟩ := m
    have other : k ≠ key := fun h => new (h ▸ List.mem_cons_self)
    rw [insert, if_neg other, ih fun mem => new (List.mem_cons_of_mem _ mem), List.cons_append]

/-- Among different keys, the next member goes to the end, and the keys stay different. -/
theorem insert_next {done rest : List (String × Json)} {m : String × Json}
    (distinct : (keys (done ++ m :: rest)).Nodup) (v : Json) :
    insert m.1 v done = done ++ [(m.1, v)] ∧ (keys (done ++ [(m.1, v)] ++ rest)).Nodup := by
  have same : keys (done ++ [(m.1, v)] ++ rest) = keys (done ++ m :: rest) := by simp [keys]
  refine ⟨insert_new fun mem => ?_, same ▸ distinct⟩
  have split : keys (done ++ m :: rest) = keys done ++ keys (m :: rest) := by simp [keys]
  rw [split] at distinct
  exact (List.nodup_append.1 distinct).2.2 _ mem _ List.mem_cons_self rfl

section

variable {depth fuel : Nat} {m : String × Json} {w : Json} {rest tail more : List Char}
  {done members : List (String × Json)}

/-- The key of a member and the colon are passed, and its value is read. -/
theorem readMembers_key (rest : List Char) (standard : l.Standard)
    (begins : BeginsValue (write l depth m.2)) :
    ∃ after, memberText l depth m ++ rest = '"' :: after ∧
      ∃ behind, (∀ opening, readText opening after = .ok (m.1.toList, ':' :: behind)) ∧
        skipGaps behind = write l depth m.2 ++ rest := by
  obtain ⟨gaps, colon, blank⟩ := standard.colon
  obtain ⟨c, more, shape, solid, -⟩ := begins
  refine ⟨_, ?_, gaps ++ (write l depth m.2 ++ rest),
    fun opening => readText_quoted opening _ _, ?_⟩
  · rw [memberText_eq, colon]
    simp only [List.cons_append, List.append_assoc]
  · rw [skipGaps_append blank, shape, List.cons_append, skipGaps_cons solid]

theorem readMembers_last (standard : l.Standard) (begins : BeginsValue (write l depth m.2))
    (value : readValue fuel (write l depth m.2 ++ rest) = .ok (w, rest))
    (closed : skipGaps rest = '}' :: tail) :
    readMembers (fuel + 1) done (memberText l depth m ++ rest) =
      .ok (insert m.1 w done, tail) := by
  obtain ⟨after, text, behind, key, next⟩ := readMembers_key rest standard begins
  rw [text]
  simp [readMembers, key, skipGaps_cons (show isGap ':' = false from rfl), next, value, closed]

theorem readMembers_next (standard : l.Standard) (begins : BeginsValue (write l depth m.2))
    (value : readValue fuel (write l depth m.2 ++ rest) = .ok (w, rest))
    (comma : skipGaps rest = ',' :: more)
    (others : readMembers fuel (insert m.1 w done) (skipGaps more) = .ok (members, tail)) :
    readMembers (fuel + 1) done (memberText l depth m ++ rest) = .ok (members, tail) := by
  obtain ⟨after, text, behind, key, next⟩ := readMembers_key rest standard begins
  rw [text]
  simp [readMembers, key, skipGaps_cons (show isGap ':' = false from rfl), next, value, comma,
    others]

end

theorem length_write_le_memberText (depth : Nat) (m : String × Json) :
    (write l depth m.2).length < (memberText l depth m).length := by
  rw [memberText_eq]
  simp only [List.length_cons, List.length_append]
  omega

/-- Members that are read one by one are read one after the other, if no key occurs twice. -/
theorem readMembers_written (standard : l.Standard) (depth : Nat) (f : Json → Json)
    (m : String × Json) (rest : List (String × Json))
    (begins : ∀ n ∈ m :: rest, BeginsValue (write l (depth + 1) n.2))
    (each : ∀ n ∈ m :: rest, ReadsAs l (depth + 1) n.2 (f n.2)) (done : List (String × Json))
    (distinct : (keys (done ++ m :: rest)).Nodup) (fuel : Nat) (tail : List Char)
    (enough : 2 * (memberText l (depth + 1) m ++
      continued l depth '}' (rest.map (memberText l (depth + 1)))).length ≤ fuel) :
    readMembers fuel done (memberText l (depth + 1) m ++
        (continued l depth '}' (rest.map (memberText l (depth + 1))) ++ tail)) =
      .ok (done ++ mapMembers f (m :: rest), tail) := by
  induction rest generalizing m done fuel with
  | nil =>
    have lighter := length_write_le_memberText (l := l) (depth + 1) m
    have entered := (insert_next distinct (f m.2)).1
    simp only [List.map_nil, continued_nil, List.length_append, List.length_singleton] at enough
    obtain ⟨fuel, rfl⟩ : ∃ n, fuel = n + 1 := ⟨fuel - 1, by omega⟩
    have value := each m List.mem_cons_self fuel _ (by omega)
      (ends_continued standard depth (show '}' ∈ delimiters by decide) [] tail)
    rw [List.map_nil, readMembers_last standard (begins m List.mem_cons_self) value
      (skipGaps_continued_nil standard depth rfl tail), entered]
    rfl
  | cons n rest ih =>
    have lighter := length_write_le_memberText (l := l) (depth + 1) m
    obtain ⟨entered, distinct⟩ := insert_next distinct (f m.2)
    obtain ⟨gaps, comma, -⟩ := standard.comma
    simp only [List.map_cons, continued_cons, comma, List.length_append, List.length_cons] at enough
    obtain ⟨fuel, rfl⟩ : ∃ n, fuel = n + 1 := ⟨fuel - 1, by omega⟩
    obtain ⟨more, found, next⟩ := skipGaps_continued_cons standard depth '}'
      (beginsValue_memberText (l := l) (depth + 1) n) (rest.map (memberText l (depth + 1))) tail
    have ends := ends_continued standard depth (show '}' ∈ delimiters by decide)
      ((n :: rest).map (memberText l (depth + 1))) tail
    have value := each m List.mem_cons_self fuel _ (by omega) ends
    refine readMembers_next standard (begins m List.mem_cons_self) value found ?_
    have later := ih n (fun k mem => begins k (List.mem_cons_of_mem _ mem))
      (fun k mem => each k (List.mem_cons_of_mem _ mem)) (done ++ [(m.1, f m.2)]) distinct fuel
      (by rw [List.length_append]; omega)
    rw [next, entered, later, List.append_assoc]
    rfl

/-! ## Values -/

/-- What reading back asks of a value, as far as its own kind goes: no key occurs twice in an
object, an integer is short enough, and the text of a finite real number reads back. -/
def Readable : Json → Prop
  | int n => IsShort n
  | float (.finite negative mantissa exponent) =>
    (Binary64.finite negative mantissa exponent).ReadsBack
  | obj members => (keys members).Nodup
  | _ => True

/-- A written value begins with a character that a value can begin with. -/
theorem beginsValue_write (depth : Nat) (v : Json) : BeginsValue (write l depth v) := by
  have number : ∀ {cs : List Char}, BeginsNumber cs → BeginsValue cs := by
    rintro cs ⟨d, rest, digit, rfl | rfl⟩
    · refine ⟨d, rest, rfl, not_isGap_of_isNumeralChar (isNumeralChar_of_isDigit digit), ?_, ?_, ?_⟩
      all_goals
        rintro rfl
        cases digit
    · exact ⟨'-', d :: rest, rfl, by decide⟩
  have bracketed : ∀ (opening closing : Char) (items : List (List Char)),
      ∃ rest, bracket l depth opening closing items = opening :: rest := by
    intro opening closing items
    cases items with
    | nil => exact ⟨_, rfl⟩
    | cons first rest => exact ⟨_, bracket_cons _ _ _ _ _⟩
  cases v with
  | null => exact ⟨'n', _, rfl, by decide⟩
  | bool b => cases b <;> exact ⟨_, _, rfl, by decide⟩
  | int n => exact number (beginsNumber_decimal n)
  | float x =>
    cases x with
    | nan => exact ⟨'N', _, rfl, by decide⟩
    | infinite negative => cases negative <;> exact ⟨_, _, rfl, by decide⟩
    | finite negative mantissa exponent => exact number (numeral_render _ _ _).begins
  | str s => exact ⟨'"', _, rfl, by decide⟩
  | arr items =>
    obtain ⟨rest, shape⟩ := bracketed '[' ']' (writeItems l (depth + 1) items)
    exact ⟨'[', rest, by rw [write, shape], by decide⟩
  | obj members =>
    obtain ⟨rest, shape⟩ := bracketed '{' '}'
      ((arrange l (writeMembers l (depth + 1) members)).map (writtenMember l))
    exact ⟨'{', rest, by rw [write, shape], by decide⟩

theorem readValue_items {fuel : Nat} {cs gaps first rest : List Char} {items : List Json}
    (blank : ∀ c ∈ gaps, isGap c = true) (begins : BeginsValue first)
    (value : readItems fuel (first ++ cs) = .ok (items, rest)) :
    readValue (fuel + 1) ('[' :: (gaps ++ (first ++ cs))) = .ok (arr items, rest) := by
  obtain ⟨c, more, rfl, solid, notClosing, -⟩ := begins
  rw [List.cons_append] at value ⊢
  rw [readValue, skipGaps_append blank, skipGaps_cons solid]
  split
  · next h => exact absurd (List.cons.inj h).1 notClosing
  · rw [value]

theorem readValue_members {fuel : Nat} {cs gaps first rest : List Char}
    {members : List (String × Json)} (blank : ∀ c ∈ gaps, isGap c = true)
    (begins : BeginsValue first)
    (value : readMembers fuel [] (first ++ cs) = .ok (members, rest)) :
    readValue (fuel + 1) ('{' :: (gaps ++ (first ++ cs))) = .ok (obj members, rest) := by
  obtain ⟨c, more, rfl, solid, -, notClosing, -⟩ := begins
  rw [List.cons_append] at value ⊢
  rw [readValue, skipGaps_append blank, skipGaps_cons solid]
  split
  · next h => exact absurd (List.cons.inj h).1 notClosing
  · rw [value]

/-- The written members of an object are those of the arranged object. -/
theorem writtenMembers_eq (depth : Nat) (members : List (String × Json)) :
    (arrange l (writeMembers l depth members)).map (writtenMember l) =
      (arrange l members).map (memberText l depth) := by
  have written : writeMembers l depth members = mapMembers (write l depth) members :=
    writeMembers_eq_map l depth members
  rw [written, arrange_mapMembers, mapMembers, List.map_map]
  rfl

/-- A written value is read back with its members in the order of the layout. -/
theorem readsAs_write (standard : l.Standard) (v : Json) (readable : Everywhere Readable v) :
    ∀ depth, ReadsAs l depth v (arranged l v) := by
  induction v using induct with
  | step v ih =>
    intro depth fuel tail enough ends
    have begins := beginsValue_write (l := l) depth v
    obtain ⟨fuel, rfl⟩ : ∃ n, fuel = n + 1 := by
      obtain ⟨c, rest, shape, -⟩ := begins
      rw [shape, List.length_cons] at enough
      exact ⟨fuel - 1, by omega⟩
    cases v with
    | null => exact readValue_scalar fuel (by decide)
    | bool b => cases b <;> exact readValue_scalar fuel (by decide)
    | int n =>
      have number := beginsNumber_decimal n
      have short : IsShort n := readable.self
      show readValue (fuel + 1) (decimal n ++ tail) = _
      rw [(number.append tail).readValue]
      exact number.readScalar_append (readNumber?_decimal short) ends
    | float x =>
      cases x with
      | nan => exact readValue_scalar fuel (by decide)
      | infinite negative => cases negative <;> exact readValue_scalar fuel (by decide)
      | finite negative mantissa exponent =>
        have numeral := numeral_render negative mantissa exponent
        have reads : (Binary64.finite negative mantissa exponent).ReadsBack := readable.self
        rw [write, (numeral.begins.append tail).readValue]
        exact readScalar_render reads ends
    | str s =>
      show readValue (fuel + 1) ('"' :: (s.toList.flatMap escapeChar ++ ['"'] ++ tail)) = _
      rw [List.append_assoc, List.singleton_append, readValue, readText_quoted]
      simp [arranged]
    | arr items =>
      obtain ⟨-, readable⟩ := (everywhere_arr items).1 readable
      cases items with
      | nil => rfl
      | cons v rest =>
        rw [write, writeItems_eq_map, List.map_cons, bracket_cons] at enough ⊢
        simp only [List.length_cons, List.length_append] at enough
        have each : ∀ w ∈ v :: rest, ReadsAs l (depth + 1) w (arranged l w) :=
          fun w mem => ih w (sizeOf_item mem) (readable w mem) (depth + 1)
        have items := readItems_written standard depth (arranged l) v rest
          (fun w _ => beginsValue_write _ w) each fuel tail
          (by rw [List.length_append]; omega)
        rw [arranged_arr]
        simp only [List.cons_append, List.append_assoc]
        exact readValue_items (standard.newline _) (beginsValue_write _ v) items
    | obj members =>
      obtain ⟨distinct, readable⟩ := (everywhere_obj members).1 readable
      have perm := arrange_perm l members
      rw [write, writtenMembers_eq] at enough ⊢
      rw [arranged_obj]
      cases order : arrange l members with
      | nil => rfl
      | cons m rest =>
        rw [order] at perm
        rw [order, List.map_cons, bracket_cons] at enough
        rw [List.map_cons, bracket_cons]
        simp only [List.length_cons, List.length_append] at enough
        have each : ∀ n ∈ m :: rest, ReadsAs l (depth + 1) n.2 (arranged l n.2) := by
          intro n mem
          have member := perm.mem_iff.1 mem
          exact ih n.2 (sizeOf_member member) (readable n member) (depth + 1)
        have distinct : (keys ([] ++ m :: rest)).Nodup := (perm.map _).nodup_iff.2 distinct
        have members := readMembers_written standard depth (arranged l) m rest
          (fun n _ => beginsValue_write _ n.2) each [] distinct fuel tail
          (by rw [List.length_append]; omega)
        simp only [List.cons_append, List.append_assoc]
        exact readValue_members (standard.newline _) (beginsValue_memberText _ m) members

/-- The text of a value is read back as the value, its members in the order of the layout. -/
theorem decode_encode (standard : l.Standard) {v : Json} (readable : Everywhere Readable v) :
    decode (encode l v) = .ok (arranged l v) := by
  have value := readsAs_write standard v readable 0 (2 * (write l 0 v).length + 1) []
    (by omega) ends_nil
  obtain ⟨c, rest, shape, solid, -, -, noMark⟩ := beginsValue_write (l := l) 0 v
  rw [List.append_nil, shape] at value
  rw [decode_eq_ok, encode, String.toList_ofList, shape]
  unfold read
  split
  · next h => exact absurd (List.cons.inj h).1 noMark
  · rw [skipGaps_cons solid, value]
    rfl

end AvroRegistry.Json
