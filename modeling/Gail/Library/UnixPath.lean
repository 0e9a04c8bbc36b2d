import Gail.Library.Text

/-! The paths of Unix as texts: the directory of a path, and a name in a directory. -/
namespace Gail.Library.UnixPath

/-- What comes before the components: the root, or the current directory that a path starts with. -/
def lead : List Char → List Char
  | '/' :: _ => ['/']
  | ['.'] => ['.']
  | '.' :: '/' :: _ => ['.']
  | _ => []

/-- Empty components and current directories are passed over. -/
def passedOver (component : List Char) : Bool := component == [] || component == ['.']

/-- `Path::parent`. -/
def parent (path : List Char) : Option (List Char) :=
  match (((path.drop (lead path).length).splitOn '/').reverse.dropWhile passedOver) with
  | _ :: others => some (lead path ++ ['/'].intercalate (others.dropWhile passedOver).reverse)
  | [] => if lead path = ['.'] then some [] else none

/-- `Path::join` with a relative path. -/
def join (directory name : List Char) : List Char :=
  if directory = [] ∨ directory.getLast? = some '/' then directory ++ name else directory ++ '/' :: name

example : parent "./data/state.json".toList = some "./data".toList := by decide
example : parent "//srv//state.json/.".toList = some "//srv".toList := by decide

theorem join_eq (directory name : List Char) : ∃ middle, join directory name = directory ++ (middle ++ name) ∧
    (directory = [] → middle = []) := by
  unfold join
  split_ifs with h
  · exact ⟨[], rfl, fun _ => rfl⟩
  · exact ⟨['/'], rfl, fun hempty => absurd (.inl hempty) h⟩

/-- Trimming keeps a text that ends with a mark exactly when it starts with one. -/
theorem trim_append_iff (front : List Char) {back : List Char} {last : Char} (hlast : back.getLast? = some last)
    (hend : isWhitespace last = false) : trim (String.ofList (front ++ back)) = String.ofList (front ++ back) ↔
      ∀ c, (front ++ back).head? = some c → isWhitespace c = false := by
  set text := front ++ back with htext
  have hlast' : text.getLast? = some last := by
    rw [htext, List.getLast?_append, hlast]
    rfl
  have hkept : text.rdropWhile isWhitespace = text := by
    obtain ⟨before, hbefore⟩ := List.getLast?_eq_some_iff.mp hlast'
    rw [hbefore]
    exact List.rdropWhile_concat_neg _ _ _ (by rw [hend]; decide)
  have htrim : trim (String.ofList text) = String.ofList ((text.dropWhile isWhitespace).rdropWhile isWhitespace) := by
    rw [trim, String.toList_ofList]
  rw [htrim, String.ofList_inj]
  cases hfirst : text with
  | nil => simp
  | cons c rest =>
    rw [hfirst] at hkept
    constructor
    · intro h first hhead
      obtain rfl := Option.some.inj hhead
      by_contra hwhite
      rw [Bool.not_eq_false] at hwhite
      have hlength := congrArg List.length h
      rw [List.dropWhile_cons_of_pos hwhite] at hlength
      have hcut := (List.rdropWhile_prefix isWhitespace (rest.dropWhile isWhitespace)).length_le
      have hdropped := (List.dropWhile_suffix isWhitespace (l := rest)).length_le
      rw [List.length_cons] at hlength
      omega
    · intro h
      rw [List.dropWhile_cons_of_neg (by rw [h c rfl]; decide), hkept]

/-- A path starts with white space exactly when its directory does, if its name does not. -/
theorem trim_join_iff {directory name : List Char} {first last : Char} (hfirst : name.head? = some first)
    (hmark : isWhitespace first = false) (hlast : name.getLast? = some last) (hend : isWhitespace last = false) :
    trim (String.ofList (join directory name)) = String.ofList (join directory name) ↔
      ∀ c, directory.head? = some c → isWhitespace c = false := by
  obtain ⟨middle, hjoin, hempty⟩ := join_eq directory name
  have hback : (middle ++ name).getLast? = some last := by
    rw [List.getLast?_append, hlast]
    rfl
  rw [hjoin, trim_append_iff directory hback hend]
  cases directory with
  | nil =>
    rw [hempty rfl, List.nil_append, List.nil_append, hfirst]
    simp [hmark]
  | cons c rest => simp

end Gail.Library.UnixPath
