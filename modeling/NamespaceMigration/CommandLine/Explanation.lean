import NamespaceMigration.Migration.Basic

/-! What is said of a fault: its own text and then that of each cause. -/

namespace NamespaceMigration

def GlobFault.message : GlobFault → String
  | unclosedClass => "unclosed character class; missing ']'"
  | reversedRange first last => "invalid range; '" ++ toString first ++ "' > '" ++ toString last ++ "'"
  | unopenedGroup => "unopened alternate group; missing '\x7b' (maybe escape '\x7d' with '[\x7d]'?)"
  | unclosedGroup => "unclosed alternate group; missing '\x7d' (maybe escape '\x7b' with '[\x7b]'?)"
  | trailingEscape => "dangling '\\'"
  | tooDeep index => "error parsing pattern " ++ toString index

def Unsupported.message : Unsupported → String
  | encrypted => "unsupported Zip archive: Password required to decrypt file"
  | closed => "The password provided is incorrect"
  | unknownMethod => "unsupported Zip archive: Compression method not supported"

def ArchiveFlaw.message : ArchiveFlaw → String
  | malformed => "invalid Zip archive"
  | repeatedName => "invalid Zip archive: Duplicate filename"
  | unsupported cause => cause.message

def EntryFault.message : EntryFault → String
  | unsupported cause => cause.message
  | wrongChecksum => "Invalid checksum"
  | corrupt => "corrupt deflate stream"
  | incomplete => "incomplete deflate stream"

namespace Explanation

def because (text : String) (cause : List String) : List String := (text ++ ": " ++ cause.headD "") :: cause

def ofIo (e : IoFault) : List String := [e.message]

def ofPattern (e : InvalidExclude) : List String :=
  match e.cause with
  | .tooDeep _ => [e.cause.message]
  | _ => ["error parsing glob '" ++ e.pattern ++ "': " ++ e.cause.message]

def ofConversion (e : ConvertFault) : List String :=
  e.message :: match e with
    | .classFile _ cause => [cause.message]
    | .manifest _ cause => [cause.message]

def ofCache (e : CacheFault) : List String := e.message :: (e.cause?.map (·.message)).toList

def ofArchive : ArchiveFault → List String
  | .invalidArchive archive flaw => [archive ++ ": invalid archive", flaw.message]
  | .unreadable cause => because "io error" [cause.message]
  | .convert cause => ofConversion cause
  | .cache cause => because "conversion cache error" (ofCache cause)
  | .tooDeep archive => [archive ++ ": archives stand too deep in one another"]

def ofSettings (e : SettingsFault) : List String :=
  match e with
  | .unreadable _ cause => because e.message (ofIo cause)
  | .invalidExclude cause => because e.message (ofPattern cause)
  | _ => [e.message]

def ofWalk (e : WalkFault) : List String := e.message :: (e.cause?.map (·.message)).toList

def ofMigration (e : MigrationFault) : List String :=
  match e with
  | .settings cause => ofSettings cause
  | .excludes cause => because e.message (cause.message :: ofPattern cause)
  | .sourceUnreadable _ cause => because e.message (ofIo cause)
  | .createDirectory _ cause => because e.message (ofIo cause)
  | .io _ cause => because e.message (ofIo cause)
  | .convert _ cause => because e.message (ofArchive cause)
  | .cache cause => because e.message (ofCache cause)
  | .walk cause => because e.message (ofWalk cause)

def line (texts : List String) : String := ": ".intercalate texts ++ "\n"

end Explanation

end NamespaceMigration
