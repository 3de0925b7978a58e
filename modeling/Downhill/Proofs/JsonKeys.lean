import Downhill.Report.Json
import Downhill.Text.Pieces
import Mathlib.Data.List.Count
import Mathlib.Data.List.Forall2

/-!
# The keys of JSON

No value of the JSON of a report is a text, so a quote in what is printed opens or closes a key. The keys of a value, at
any depth and in the order in which they are printed, are thus what stands between the quotes of its text. Where a key
may be left out, as that of the levels of a peak, they tell from the printed text whether it was.

* `betweenQuotes_pretty`  : the keys of a value are what is quoted in its text;
* `count_levels_toJson`   : the key of the levels, once for each peak that has some;
* `get?_levels_toJson`    : the levels of a peak, looked up by their key.
-/

namespace Downhill

namespace Text

/-- A number is written in digits, with a minus sign before them if it is negative. -/
theorem not_mem_toString {c : Char} (hdigit : c.isDigit = false) (hminus : c ≠ '-') (z : Int) :
    c ∉ (toString z).toList := by
  have hnat : ∀ n : Nat, c ∉ n.repr.toList := by
    intro n hc
    rw [Nat.toList_repr] at hc
    exact Bool.false_ne_true (hdigit.symm.trans (Nat.isDigit_of_mem_toDigits (by decide) (by decide) hc))
  show c ∉ z.repr.toList
  rw [Int.repr_eq_if]
  split
  · exact hnat _
  · rw [String.toList_append, List.mem_append, not_or]
    exact ⟨fun hc => hminus (List.mem_singleton.mp hc), hnat _⟩

/-! ### Between quotes -/

/-- Every second one of a list, from the first on. -/
def everySecond {α : Type} : List α → List α
  | [] => []
  | [a] => [a]
  | a :: _ :: rest => a :: everySecond rest

private theorem everySecond_cons {α : Type} (a : α) (l : List α) : everySecond (a :: l) = a :: everySecond l.tail := by
  cases l <;> rfl

/-- What stands between a quote and the next one, which closes it. -/
def betweenQuotes (text : List Char) : List (List Char) :=
  everySecond (pieces '"' text).tail

private theorem tail_pieces_append {separator : Char} {front : List Char} (h : separator ∉ front) (rest : List Char) :
    (pieces separator (front ++ rest)).tail = (pieces separator rest).tail := by
  induction front with
  | nil => rfl
  | cons c front ih =>
    rw [List.mem_cons, not_or] at h
    have hpieces : pieces separator (c :: front ++ rest) =
        pushPiece separator c (pieces separator (front ++ rest)) := rfl
    obtain ⟨piece, more, hmore⟩ := List.exists_cons_of_ne_nil (pieces_ne_nil separator (front ++ rest))
    rw [hpieces, ← ih h.2, hmore, pushPiece, if_neg (Ne.symm h.1)]
    rfl

/-- The keys are what is quoted in a text, whatever comes after it. -/
def Quotes (text : List Char) (keys : List (List Char)) : Prop :=
  ∀ rest, betweenQuotes (text ++ rest) = keys ++ betweenQuotes rest

namespace Quotes

private theorem plain {text : List Char} (h : '"' ∉ text) : Quotes text [] := by
  intro rest
  rw [betweenQuotes, tail_pieces_append h]
  rfl

private theorem append {text text' : List Char} {keys keys' : List (List Char)} (h : Quotes text keys)
    (h' : Quotes text' keys') : Quotes (text ++ text') (keys ++ keys') := by
  intro rest
  rw [List.append_assoc, h, h', List.append_assoc]

/-- A key between its quotes. -/
private theorem key {key : List Char} (h : '"' ∉ key) : Quotes ('"' :: key ++ ['"']) [key] := by
  intro rest
  have hpieces : pieces '"' ('"' :: key ++ ['"'] ++ rest) = [] :: key :: pieces '"' rest := by
    rw [List.append_assoc, List.cons_append, List.singleton_append]
    exact (pieces_append_separator List.not_mem_nil (key ++ '"' :: rest)).trans
      (congrArg (List.cons []) (pieces_append_separator h rest))
  rw [betweenQuotes, hpieces, List.tail_cons, everySecond_cons]
  rfl

private theorem betweenQuotes_eq {text : List Char} {keys : List (List Char)} (h : Quotes text keys) :
    betweenQuotes text = keys := by
  have htext := h []
  rw [List.append_nil] at htext
  rw [htext]
  exact List.append_nil keys

private theorem intercalate {separator : List Char} (h : '"' ∉ separator) {lines : List (List Char)}
    {keys : List (List (List Char))} (hlines : List.Forall₂ Quotes lines keys) :
    Quotes (separator.intercalate lines) keys.flatten := by
  induction hlines with
  | nil => exact plain List.not_mem_nil
  | @cons line key lines keys hline hlines ih =>
    cases hlines with
    | nil =>
      rw [List.intercalate_singleton, List.flatten_singleton]
      exact hline
    | cons hnext hrest =>
      rw [List.intercalate_cons_cons, List.flatten_cons, List.append_assoc]
      exact hline.append ((plain h).append ih)

end Quotes

end Text

namespace Json

open Text

/-- The value of the first member with a key. -/
def get? (key : String) : Json → Option Json
  | object members => members.lookup key
  | _ => none

mutual

/-- The keys in a value, each before those in its own value. -/
def keys : Json → List String
  | null => []
  | number _ => []
  | array items => keysOfItems items
  | object members => keysOfMembers members

def keysOfItems : List Json → List String
  | [] => []
  | item :: items => keys item ++ keysOfItems items

def keysOfMembers : List (String × Json) → List String
  | [] => []
  | (key, value) :: members => key :: (keys value ++ keysOfMembers members)

end

private theorem keysOfItems_eq (items : List Json) : keysOfItems items = items.flatMap keys := by
  induction items with
  | nil => rfl
  | cons item items ih => rw [keysOfItems, ih, List.flatMap_cons]

private theorem keysOfMembers_eq (members : List (String × Json)) :
    keysOfMembers members = members.flatMap fun member => member.1 :: keys member.2 := by
  induction members with
  | nil => rfl
  | cons member members ih => rw [keysOfMembers, ih, List.flatMap_cons, List.cons_append]

/-! ### Keys in the text -/

private theorem quotes_block (opening closing : Char) (hopening : opening ≠ '"') (hclosing : closing ≠ '"')
    (level : Nat) {lines : List String} {keys : List (List (List Char))}
    (hlines : List.Forall₂ (fun line => Quotes line.toList) lines keys) :
    Quotes (block opening closing level lines).toList keys.flatten := by
  have hnewline : ∀ level, '"' ∉ (newline level).toList := by
    intro level
    simp [newline]
  unfold block
  split
  · next hempty =>
    obtain rfl : lines = [] := List.isEmpty_iff.mp hempty
    obtain rfl : keys = [] := List.forall₂_nil_left_iff.mp hlines
    rw [String.toList_ofList]
    exact .plain (by simp [hopening.symm, hclosing.symm])
  · have hmiddle : Quotes (("," ++ newline (level + 1)).intercalate lines).toList keys.flatten := by
      rw [String.toList_intercalate]
      apply Quotes.intercalate
      · simp [hnewline]
      · exact List.forall₂_map_left_iff.mpr hlines
    have hopening : '"' ∉ (String.singleton opening).toList := by simp [hopening.symm]
    have hclosing : '"' ∉ (String.singleton closing).toList := by simp [hclosing.symm]
    simp only [String.toList_append]
    have h := ((Quotes.plain hopening).append (.plain (hnewline (level + 1)))).append
      (hmiddle.append ((Quotes.plain (hnewline level)).append (.plain hclosing)))
    simpa [List.append_assoc] using h

mutual

/-- The text of a value quotes its keys, if no key has a quote in it. -/
private theorem quotes_pretty (level : Nat) (value : Json) (h : ∀ key ∈ value.keys, '"' ∉ key.toList) :
    Quotes (value.pretty level).toList (value.keys.map String.toList) := by
  cases value with
  | null => exact .plain (by decide : '"' ∉ "null".toList)
  | number z => exact .plain (not_mem_toString rfl (by decide) z)
  | array items =>
    have hblock := quotes_block '[' ']' (by decide) (by decide) level
      (quotes_prettyItems (level + 1) items h)
    rw [keys, keysOfItems_eq, List.map_flatMap, List.flatMap_def]
    exact hblock
  | object members =>
    have hblock := quotes_block '{' '}' (by decide) (by decide) level
      (quotes_prettyMembers (level + 1) members h)
    rw [keys, keysOfMembers_eq, List.map_flatMap, List.flatMap_def]
    exact hblock

private theorem quotes_prettyItems (level : Nat) (items : List Json) (h : ∀ key ∈ keysOfItems items, '"' ∉ key.toList) :
    List.Forall₂ (fun line => Quotes line.toList) (prettyItems level items)
      (items.map fun item => item.keys.map String.toList) := by
  cases items with
  | nil => exact .nil
  | cons item items =>
    rw [keysOfItems, List.forall_mem_append] at h
    exact .cons (quotes_pretty level item h.1) (quotes_prettyItems level items h.2)

private theorem quotes_prettyMembers (level : Nat) (members : List (String × Json))
    (h : ∀ key ∈ keysOfMembers members, '"' ∉ key.toList) :
    List.Forall₂ (fun line => Quotes line.toList) (prettyMembers level members)
      (members.map fun member => (member.1 :: member.2.keys).map String.toList) := by
  cases members with
  | nil => exact .nil
  | cons member members =>
    obtain ⟨key, value⟩ := member
    rw [keysOfMembers, List.forall_mem_cons, List.forall_mem_append] at h
    obtain ⟨hkey, hvalue, hmembers⟩ := h
    refine .cons ?_ (quotes_prettyMembers level members hmembers)
    have htext : ("\"" ++ key ++ "\": " ++ pretty level value).toList =
        ('"' :: key.toList ++ ['"']) ++ (": ".toList ++ (pretty level value).toList) := by
      simp
    rw [htext]
    exact (Quotes.key hkey).append ((Quotes.plain (by decide)).append (quotes_pretty level value hvalue))

end

/-- If no key has a quote in it, what is quoted in the text of a value are its keys. -/
theorem betweenQuotes_pretty {value : Json} (h : ∀ key ∈ value.keys, '"' ∉ key.toList) (level : Nat) :
    betweenQuotes (value.pretty level).toList = value.keys.map String.toList :=
  (quotes_pretty level value h).betweenQuotes_eq

example : betweenQuotes ((object [("x", .array [.number 3]), ("y", .null)]).pretty 0).toList = [['x'], ['y']] := by
  decide

end Json

/-! ### The keys of a report -/

open Json

/-- The keys of any cell. -/
def Cell.keys : List String := ["x", "y", "elevation"]

private theorem Cell.keys_toJson (cell : Cell) : cell.toJson.keys = keys := rfl

/-- The keys of the member for the levels below a peak. -/
private theorem Peak.keys_levelsMember (levels : List (List Cell)) : keysOfMembers (levelsMember levels) =
    if levels = [] then [] else "levels" :: levels.flatMap fun level => level.flatMap fun _ => Cell.keys := by
  by_cases hnil : levels = []
  · rw [hnil]
    rfl
  · have hlevel : ∀ level : List Cell, (array (level.map Cell.toJson)).keys = level.flatMap fun _ => Cell.keys := by
      intro level
      rw [keys, keysOfItems_eq, List.flatMap_map]
      simp only [Cell.keys_toJson]
    rw [levelsMember, if_neg (by simpa using hnil), if_neg hnil, keysOfMembers, keys, keysOfItems_eq, List.flatMap_map,
      keysOfMembers, List.append_nil]
    simp only [hlevel]

private theorem Peak.keys_toJson (peak : Peak) : peak.toJson.keys =
    ["cell", "x", "y", "elevation", "vertical_drop", "min_elevation"] ++ keysOfMembers (levelsMember peak.levels) :=
  rfl

private theorem Report.keys_toJson (report : Report) : report.toJson.keys =
    ["width", "height", "nodes", "edges", "summits", "longest_path", "max_vertical_drop", "best_peak"] ++
      (report.bestPeak.map fun _ => Cell.keys).getD [] ++
      ["peaks"] ++ report.peaks.flatMap (fun peak => peak.toJson.keys) ++
      ["alternatives"] ++ report.alternatives.flatMap fun _ => ["path_length", "summits"] := by
  have hbest : ((report.bestPeak.map Cell.toJson).getD .null).keys =
      (report.bestPeak.map fun _ => Cell.keys).getD [] := by
    cases report.bestPeak <;> rfl
  have hpeaks : keysOfItems (report.peaks.map Peak.toJson) = report.peaks.flatMap fun peak => peak.toJson.keys := by
    rw [keysOfItems_eq, List.flatMap_map]
  have halternatives : keysOfItems (report.alternatives.map LengthCount.toJson) =
      report.alternatives.flatMap fun _ => ["path_length", "summits"] := by
    rw [keysOfItems_eq, List.flatMap_map]
    rfl
  simp only [toJson, keys, keysOfMembers, hbest, hpeaks, halternatives, List.nil_append, List.append_nil,
    List.cons_append, List.append_assoc]

theorem Peak.count_levels_toJson (peak : Peak) :
    peak.toJson.keys.count "levels" = if peak.levels = [] then 0 else 1 := by
  rw [keys_toJson, keys_levelsMember, List.count_append]
  split
  · rfl
  · have hcells : "levels" ∉ peak.levels.flatMap fun level => level.flatMap fun _ => Cell.keys := by
      simp [Cell.keys]
    rw [List.count_cons_self, List.count_eq_zero_of_not_mem hcells]
    rfl

/-- A report has the key of the levels once for each peak with levels. -/
theorem Report.count_levels_toJson (report : Report) :
    report.toJson.keys.count "levels" = report.peaks.countP (·.levels ≠ []) := by
  have hpeaks : ∀ peaks : List Peak,
      (peaks.flatMap fun peak => peak.toJson.keys).count "levels" = peaks.countP (·.levels ≠ []) := by
    intro peaks
    induction peaks with
    | nil => rfl
    | cons peak peaks ih =>
      rw [List.flatMap_cons, List.count_append, ih, Peak.count_levels_toJson, List.countP_cons]
      split <;> simp_all [Nat.add_comm]
  have hbest : ((report.bestPeak.map fun _ => Cell.keys).getD []).count "levels" = 0 := by
    cases report.bestPeak <;> rfl
  have halternatives : (report.alternatives.flatMap fun _ => ["path_length", "summits"]).count "levels" = 0 := by
    simp [List.count_eq_zero]
  have hfront : ["width", "height", "nodes", "edges", "summits", "longest_path", "max_vertical_drop", "best_peak"].count
      "levels" = 0 := by decide
  have hpeaksKey : ["peaks"].count "levels" = 0 := by decide
  have halternativesKey : ["alternatives"].count "levels" = 0 := by decide
  rw [keys_toJson]
  simp only [List.count_append, hfront, hbest, hpeaksKey, hpeaks, halternativesKey, halternatives, Nat.zero_add,
    Nat.add_zero]

private theorem Report.quote_not_mem_of_mem_keys (report : Report) : ∀ key ∈ report.toJson.keys, '"' ∉ key.toList := by
  have hcell : ∀ key ∈ Cell.keys, '"' ∉ key.toList := by decide
  have hpeak : ∀ peak : Peak, ∀ key ∈ peak.toJson.keys, '"' ∉ key.toList := by
    intro peak
    rw [Peak.keys_toJson, Peak.keys_levelsMember, List.forall_mem_append]
    refine ⟨by decide, ?_⟩
    split
    · exact List.forall_mem_nil _
    · rw [List.forall_mem_cons]
      exact ⟨by decide, List.forall_mem_flatMap.mpr fun _ _ => List.forall_mem_flatMap.mpr fun _ _ => hcell⟩
  have hbest : ∀ key ∈ (report.bestPeak.map fun _ => Cell.keys).getD [], '"' ∉ key.toList := by
    cases report.bestPeak with
    | none => exact List.forall_mem_nil _
    | some _ => exact hcell
  rw [keys_toJson]
  simp only [List.forall_mem_append]
  exact ⟨⟨⟨⟨⟨by decide, hbest⟩, by decide⟩, List.forall_mem_flatMap.mpr fun peak _ => hpeak peak⟩, by decide⟩,
    List.forall_mem_flatMap.mpr fun _ _ => by decide⟩

/-- So it is in the text of the report. -/
theorem Report.count_levels_pretty (report : Report) :
    (Text.betweenQuotes (report.toJson.pretty 0).toList).count "levels".toList =
      report.peaks.countP (·.levels ≠ []) := by
  rw [betweenQuotes_pretty report.quote_not_mem_of_mem_keys, ← count_levels_toJson]
  exact List.count_map_of_injective _ String.toList (fun _ _ => String.toList_inj.mp) "levels"

/-- The levels of a peak are looked up by their key, which is left out if there are none. -/
theorem Peak.get?_levels_toJson (peak : Peak) : peak.toJson.get? "levels" =
    if peak.levels = [] then none else some (.array (peak.levels.map fun level => .array (level.map Cell.toJson))) := by
  by_cases hnil : peak.levels = []
  · rw [toJson, hnil]
    rfl
  · rw [toJson, levelsMember, if_neg (by simpa using hnil), if_neg hnil]
    rfl

end Downhill
