import BuildLint.Disk
import BuildLint.Json.Access
import BuildLint.Json.Reader
import BuildLint.Toolchain.Layout

/-!
# Failure — what can go wrong, cause by cause

A **failure** is an error of the program's own: a wrong setting, unusable build data, no usable
toolchain, a command that cannot be built, a source that does not compile, a report that cannot be
merged.  Each constructor is one cause; `Failure.message` words them all.

A **fault** is whatever stops an action: a failure, or something met in its input that the program
has no failure for.
-/

namespace BuildLint

/-- **Settings** that cannot be used. -/
inductive ConfigurationCause where
  | configurationRequired
  | configurationUnknown
  | configurationMismatch (name : Json)
  | openQuote (arguments : Text)
  | emptyBuildRoot
  | noExecutable (name : Text)
  | noBuildDirectory
  | noResultDirectory
  | noConfigFile (path : Text)
  | configUnreadable (path : Text) (fault : FileFault)
  | configMalformed (path : Text)
  | analysisNotTable (path : Text)
  | notBoolean (key : Text)
  | notString (key : Text)
  | notPathList (key : Text)

/-- **Build data** that is missing or malformed. -/
inductive MetadataCause where
  | noReplyFile (path : Text)
  | replyUnreadable (path : Text) (fault : FileFault)
  | replyMalformed (path : Text) (fault : Json.Fault)
  | queryUnwritable (fault : FileFault)
  | noResponses (fault : Json.AccessFault)
  | noIndex
  | versionTooOld (version minimum : Text)
  | reconfigureFailed (exitCode : Int) (errors : Text)
  | noConfigurations
  | noCodemodel
  | codemodelMalformed (fault : Json.AccessFault)
  | targetEntryMalformed (entry : Json)
  | targetMalformed (file : Json) (fault : Json.AccessFault)

/-- **Toolchains** that are missing or laid out in an unknown way. -/
inductive ToolchainCause where
  | noReply
  | noCompilerPath (language : Json)
  | unknownLayout (error : LayoutError) (path : Text)
  | noneUsable

/-- **Commands** that cannot be built. -/
inductive SynthesisCause where
  | noEngine (path : Text)
  | noRuleset (name : Text)
  | promptFailed
  | openQuote (source : Text)
  | noLog (fault : FileFault)
  | nothingToAnalyze

/-- **Reports** that cannot be merged. -/
inductive AggregationCause where
  | malformedResult (value : Json)
  | noRule
  | noMessage (rule : Text)
  | noLocation (rule text : Text)
  | invalidLocation (rule text : Text)
  | unreadable (path : Text) (fault : FileFault)
  | malformed (path : Text) (fault : Json.Fault)
  | fileNotObject (path : Text)
  | notObject
  | runsNotObjects
  | resultsNotList
  | unwritable (fault : FileFault)
  | noOutputDirectory (path : Text)

/-- **A failure** of the program's own. -/
inductive Failure where
  | configuration (cause : ConfigurationCause)
  | metadata (cause : MetadataCause)
  | toolchain (cause : ToolchainCause)
  | synthesis (cause : SynthesisCause)
  | analysis (failedSources : List Text)
  | aggregation (cause : AggregationCause)

/-- A settings failure in words. -/
def ConfigurationCause.message : ConfigurationCause → Text
  | .configurationRequired =>
    "buildConfiguration is required for multi-config CMake Generators."
  | .configurationUnknown =>
    "buildConfiguration does not match any available in CMake project."
  | .configurationMismatch name =>
    "buildConfiguration does not match '" ++ name.plain ++ "' configuration used by CMake."
  | .openQuote arguments =>
    "Invalid additional_args \"" ++ arguments ++ "\": No closing quotation"
  | .emptyBuildRoot =>
    "CMake build root must exist, be non-empty and be configured with CMake"
  | .noExecutable name => "Unable to locate executable: " ++ name
  | .noBuildDirectory =>
    "CMake build directory does not exist. Ensure CMake is already configured."
  | .noResultDirectory => "Directory of the 'resultPath' file must already exist."
  | .noConfigFile path => "Config file not found: " ++ path
  | .configUnreadable path fault => "Failed to load config file " ++ path ++ ": " ++ fault.text
  | .configMalformed path => "Failed to load config file " ++ path ++ ": <TomlDecodeError>"
  | .analysisNotTable path => "[analysis] in " ++ path ++ " must be a table"
  | .notBoolean key => "Option '" ++ key ++ "' must be true or false"
  | .notString key => "Option '" ++ key ++ "' must be a string"
  | .notPathList key =>
    "Option '" ++ key ++ "' must be a ';' separated string or a list of strings"

/-- A build data failure in words. -/
def MetadataCause.message : MetadataCause → Text
  | .noReplyFile path => "Failed to find CMake API reply file: " ++ path
  | .replyUnreadable path fault =>
    "Failed to read CMake API reply file: " ++ path ++ ": " ++ fault.text
  | .replyMalformed path fault =>
    "Malformed CMake API reply file: " ++ path ++ ": " ++ fault.text
  | .queryUnwritable fault => "Failed to write query.json file for CMake API: " ++ fault.text
  | .noResponses fault =>
    "CMake API index reply has no responses for client 'client-msvc-ca-action': missing " ++
      fault.text
  | .noIndex => "Failed to find CMake API index reply file."
  | .versionTooOld version minimum =>
    "CMake version " ++ version ++ " is not supported, requires CMake version >= " ++ minimum
  | .reconfigureFailed exitCode errors =>
    "CMake failed to reconfigure project with exit code " ++ Decimal.ofInt exitCode ++ ": " ++
      errors
  | .noConfigurations => "CMake codemodel does not list any configurations."
  | .noCodemodel => "Failed to load codemodel response from CMake API"
  | .codemodelMalformed fault => "Malformed CMake codemodel reply: missing " ++ fault.text
  | .targetEntryMalformed entry =>
    "Malformed target entry in CMake codemodel reply: " ++ entry.display
  | .targetMalformed file fault =>
    "Malformed CMake target reply: " ++ file.plain ++ ": " ++ fault.display

/-- A toolchain failure in words. -/
def ToolchainCause.message : ToolchainCause → Text
  | .noReply => "Failed to load toolchains response from CMake API"
  | .noCompilerPath language =>
    "Toolchain for language " ++ language.plain ++ " has no compiler path"
  | .unknownLayout error path => error.text ++ ": " ++ path
  | .noneUsable => "Action requires use of MSVC for either/both C or C++."

/-- A command failure in words. -/
def SynthesisCause.message : SynthesisCause → Text
  | .noEngine path => "Unable to find: " ++ path
  | .noRuleset name => "Unable to find local or official ruleset specified: " ++ name
  | .promptFailed => "Failed to run VS Command Prompt to collect implicit includes/libs"
  | .openQuote source =>
    "Failed to parse compile flags for " ++ source ++ ": No closing quotation"
  | .noLog fault => "Failed to create temporary file to write SARIF: " ++ fault.text
  | .nothingToAnalyze => "No C/C++ files were found in the project that could be analyzed."

/-- A report failure in words. -/
def AggregationCause.message : AggregationCause → Text
  | .malformedResult value =>
    "Found malformed warning, resolve before continuing: " ++ value.display
  | .noRule => "Found warning with no ID, resolve before continuing"
  | .noMessage rule => "Found warning with no message, resolve before continuing: " ++ rule
  | .noLocation rule text =>
    "Found warning with no location, resolve before continuing:\n" ++ rule ++ ": " ++ text
  | .invalidLocation rule text =>
    "Found warning with invalid location, resolve before continuing:\n" ++ rule ++ ": " ++ text
  | .unreadable path fault => "Failed to read SARIF log: " ++ path ++ ": " ++ fault.text
  | .malformed path fault => "Malformed SARIF log: " ++ path ++ ": " ++ fault.text
  | .fileNotObject path => "Malformed SARIF log: " ++ path ++ ": top level is not an object"
  | .notObject => "Malformed SARIF log: top level is not an object"
  | .runsNotObjects => "Malformed SARIF log: 'runs' must be a list of objects"
  | .resultsNotList => "Malformed SARIF log: 'results' must be a list"
  | .unwritable fault => "Failed to write combined SARIF result file: " ++ fault.text
  | .noOutputDirectory path => "Output directory does not exist: " ++ path

/-- The last name of a path, with either separator, and whatever separators it ends with. -/
def sourceName (path : Text) : Text :=
  Text.afterLast '/' (Text.stripRight (· = '/') (path.replace '\\' '/'))

/-- **A failure in words.** -/
def Failure.message : Failure → Text
  | .configuration cause => cause.message
  | .metadata cause => cause.message
  | .toolchain cause => cause.message
  | .synthesis cause => cause.message
  | .analysis sources =>
    "Analysis failed due to compiler errors in files: " ++
      Text.joinWith "," (sources.map sourceName)
  | .aggregation cause => cause.message

/-- **Why a call cannot be passed on** to the system: a text of it holds a zero, or half of a
surrogate pair. -/
inductive CallFault where
  | holdsNul
  | holdsSurrogate
deriving DecidableEq

/-- **What stops an action**: a failure, or an input for which there is none. -/
inductive Fault where
  | failure (failure : Failure)
  | access (fault : Json.AccessFault)
  | call (fault : CallFault)
  | notText
  | badNumber
  | notPrintable
  | tooLarge
  | noValue
  | file (fault : FileFault)

end BuildLint
