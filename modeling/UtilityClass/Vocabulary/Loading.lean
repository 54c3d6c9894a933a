import UtilityClass.Snapshot.Json
import UtilityClass.Text.Blank

/-!
# Loading snapshots

A snapshot is loaded entry by entry.  Names must not be blank, and a variant
declared again must be declared alike, which is noted and otherwise ignored.
The first failing check ends the loading.  The notes made up to there remain.
-/

namespace UtilityClass

/-- The tables of a snapshot. -/
inductive NameTable where
  | static
  | functional
  | variant
  deriving DecidableEq

/-- What an entry of a table is called in messages. -/
def NameTable.entryName : NameTable → String
  | static => "static utility"
  | functional => "functional utility"
  | variant => "variant"

/-- Why a vocabulary cannot be set up. -/
inductive LoadError where
  /-- The text is no snapshot. -/
  | unreadable (fault : Json.Fault)
  | blankName (table : NameTable)
  | conflictingVariant (name : Text)
  /-- The snapshot allows no compound variant at all. -/
  | zeroDepth
  /-- A depth setting that is no positive integer, as it is written. -/
  | badDepthSetting (raw : Text)

namespace LoadError

/-- The description of a broken setting. -/
def invalidConfiguration (detail : Text) : Text :=
  "invalid configuration: ".toList ++ detail

/-- The wording of an error.  A text that breaks is only said to be unreadable. -/
def message : LoadError → Text
  | unreadable (.broken _) => "invalid registry snapshot".toList
  | unreadable (.mismatch mismatch) =>
    "invalid registry snapshot: ".toList ++ mismatch.message
  | blankName table =>
    "empty ".toList ++ table.entryName.toList ++ " name in registry snapshot".toList
  | conflictingVariant name =>
    "variant \x60".toList ++ name ++ "\x60 declared with conflicting definitions".toList
  | zeroDepth =>
    invalidConfiguration "maxVariantDepth must be a positive integer".toList
  | badDepthSetting raw =>
    invalidConfiguration
      ("invalid variant depth '".toList ++ raw ++ "', expected a positive integer".toList)

end LoadError

/-- What is noted while a snapshot is loaded. -/
inductive LoadNote where
  /-- A variant was declared again in the same way. -/
  | repeatedVariant (name : Text)
  /-- The loading is complete, with so many names in the three tables. -/
  | loaded (statics functionals variants : Nat)
  deriving DecidableEq

inductive Severity where
  | warning
  | debug
  deriving DecidableEq

namespace LoadNote

/-- A repetition may be a mistake, completion is only of interest to debugging. -/
def severity : LoadNote → Severity
  | repeatedVariant _ => .warning
  | loaded _ _ _ => .debug

def message : LoadNote → Text
  | repeatedVariant name =>
    "ignoring duplicate declaration of variant \x60".toList ++ name ++ ['\x60']
  | loaded statics functionals variants =>
    "loaded registry snapshot with ".toList ++ Text.ofNatural statics ++
      " static utilities, ".toList ++ Text.ofNatural functionals ++
      " functional utilities and ".toList ++ Text.ofNatural variants ++ " variants".toList

end LoadNote

/-- The outcome of a loading and the notes made on the way, in order. -/
structure Loading (α : Type) where
  outcome : Except LoadError α
  notes : List LoadNote

namespace Loading

variable {α β : Type}

def succeed (value : α) : Loading α := ⟨.ok value, []⟩

def fail (error : LoadError) : Loading α := ⟨.error error, []⟩

/-- Goes on after a success, and adds up the notes. -/
def andThen (first : Loading α) (next : α → Loading β) : Loading β :=
  match first.outcome with
  | .error error => ⟨.error error, first.notes⟩
  | .ok value => ⟨(next value).outcome, first.notes ++ (next value).notes⟩

end Loading

namespace Vocabulary

def loadNames (table : NameTable) : Table Unit → List Text → Loading (Table Unit)
  | entered, [] => .succeed entered
  | entered, name :: names =>
    if name.isBlank then .fail (.blankName table)
    else loadNames table (entered.insert name ()) names

def loadRow (entered : Table VariantEntry) (row : VariantRow) : Loading (Table VariantEntry) :=
  if row.name.isBlank then .fail (.blankName .variant)
  else
    match entered.get? row.name with
    | none => .succeed (entered.insert row.name row.entry)
    | some earlier =>
      if earlier = row.entry then ⟨.ok entered, [.repeatedVariant row.name]⟩
      else .fail (.conflictingVariant row.name)

def loadRows : Table VariantEntry → List VariantRow → Loading (Table VariantEntry)
  | entered, [] => .succeed entered
  | entered, row :: rows => (loadRow entered row).andThen fun next => loadRows next rows

def loadDepth : Option Nat → Loading Nat
  | none => .succeed defaultDepth
  | some 0 => .fail .zeroDepth
  | some depth => .succeed depth

/-- The vocabulary a snapshot describes. -/
def ofSnapshot (snapshot : Snapshot) : Loading Vocabulary :=
  (loadNames .static .empty snapshot.utilities.statics).andThen fun statics =>
    (loadNames .functional .empty snapshot.utilities.functionals).andThen fun functionals =>
      (loadRows .empty snapshot.variants).andThen fun variants =>
        (loadDepth snapshot.maxVariantDepth).andThen fun depth =>
          ⟨.ok ⟨statics, functionals, variants, depth⟩,
            [.loaded statics.size functionals.size variants.size]⟩

/-- The vocabulary that the text of a snapshot describes. -/
def ofText (source : Text) : Loading Vocabulary :=
  match Snapshot.read source with
  | .error fault => .fail (.unreadable fault)
  | .ok snapshot => ofSnapshot snapshot

end Vocabulary

end UtilityClass
