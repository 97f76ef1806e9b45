/-!
# Commands

The program does one of seven things, which a word on its command line chooses. Options on the line
say more: where the settings are, and for a check, what is to be checked. The line has two parts,
the program's own and, behind the word, that of the command; each part knows options of its own.
-/

namespace Rulebook

/-- **A word that chooses a command.** -/
inductive Verb where
  /-- Serves the content. -/
  | startService
  /-- Shows what can be asked for. -/
  | printHelp
  /-- Shows the settings. -/
  | printConfig
  /-- Shows the groups. -/
  | printGroups
  /-- Shows the rules. -/
  | printRules
  /-- Shows facts about the program. -/
  | printVersionInfo
  /-- Looks for problems of the content. -/
  | check
deriving DecidableEq, Repr

namespace Verb

/-- All words, in the order in which they are shown. -/
def all : List Verb :=
  [.startService, .printHelp, .printConfig, .printGroups, .printRules, .printVersionInfo, .check]

/-- **The word.** -/
def text : Verb → String
  | .startService => "start-service"
  | .printHelp => "print-help"
  | .printConfig => "print-config"
  | .printGroups => "print-groups"
  | .printRules => "print-rules"
  | .printVersionInfo => "print-version-info"
  | .check => "check"

/-- What the command does, in a few words. -/
def summary : Verb → String
  | .startService => "Start the content service"
  | .printHelp => "Print this help"
  | .printConfig => "Print the current configuration set by files and environment variables"
  | .printGroups => "Print the current group configuration"
  | .printRules => "Print the parsed rule content as JSON"
  | .printVersionInfo => "Print version information"
  | .check => "Check groups and rule content for problems that do not prevent loading"

/-- The word that a text is. -/
def ofText? (text : String) : Option Verb := all.find? (·.text == text)

end Verb

/-- **What the program is asked to do.** -/
inductive Command where
  /-- Serve the content. -/
  | startService
  /-- Show what can be asked for. -/
  | printHelp
  /-- Show the settings. -/
  | printConfig
  /-- Show the groups. -/
  | printGroups
  /-- Show the rules. -/
  | printRules
  /-- Show facts about the program. -/
  | printVersionInfo
  /-- Look for problems of the groups in one file and of the content at one path; the settings name
  those that are not given. -/
  | check (groups content : Option String)
deriving DecidableEq, Repr

/-- The word that chooses a command. -/
def Command.verb : Command → Verb
  | .startService => .startService
  | .printHelp => .printHelp
  | .printConfig => .printConfig
  | .printGroups => .printGroups
  | .printRules => .printRules
  | .printVersionInfo => .printVersionInfo
  | .check .. => .check

/-! ## Options -/

/-- **An option.** -/
inductive Flag where
  /-- The file with the settings. -/
  | config
  /-- The file with the groups to check. -/
  | groups
  /-- Where the content to check is. -/
  | content
  /-- Asks for help. -/
  | help
  /-- Asks for the version. -/
  | version
deriving DecidableEq, Repr

namespace Flag

/-- The name of an option, which stands behind two dashes. -/
def long : Flag → String
  | .config => "config"
  | .groups => "groups"
  | .content => "content"
  | .help => "help"
  | .version => "version"

/-- The letter of an option, which stands behind one dash. -/
def short? : Flag → Option Char
  | .config => some 'c'
  | .help => some 'h'
  | .version => some 'V'
  | _ => none

/-- The word for the value of an option, if it takes one. -/
def valueName? : Flag → Option String
  | .config => some "CONFIG"
  | .groups => some "GROUPS"
  | .content => some "CONTENT"
  | _ => none

/-- What an option means, in a few words. -/
def summary : Flag → String
  | .config => "Path to configuration file (TOML, or YAML by extension)"
  | .groups => "Group configuration to check; defaults to `groups.config_path`"
  | .content => "Content tree to check; defaults to `content.path`"
  | .help => "Print help"
  | .version => "Print version"

end Flag

/-- **A part of the command line.** -/
inductive Scope where
  /-- The program's own. -/
  | program
  /-- That of a command. -/
  | command (verb : Verb)
deriving DecidableEq, Repr

namespace Scope

/-- **The options of a part**, in the order in which they are shown. -/
def flags : Scope → List Flag
  | .program => [.config, .help, .version]
  | .command .check => [.config, .groups, .content, .help]
  | .command _ => [.config, .help]

/-- The option of a part with a name. -/
def long? (scope : Scope) (name : String) : Option Flag := scope.flags.find? (·.long == name)

/-- The option of a part with a letter. -/
def short? (scope : Scope) (letter : Char) : Option Flag :=
  scope.flags.find? (·.short? == some letter)

end Scope

/-- **What help may be about.** -/
inductive Topic where
  /-- A part of the command line. -/
  | scope (scope : Scope)
  /-- Help itself. -/
  | help
deriving DecidableEq, Repr

end Rulebook
