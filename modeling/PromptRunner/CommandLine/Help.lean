import PromptRunner.CommandLine.Arguments

/-!
# What the program says of itself
-/

namespace PromptRunner.CommandLine

def versionText : String := "llmexec 0.1.0\n"

/-- How the program is called, line by line. -/
def helpLines : List String :=
  ["LLM-powered shebang script executor",
    "",
    "Usage: llmexec [OPTIONS] <SCRIPT>",
    "",
    "Arguments:",
    "  <SCRIPT>  Script file containing a natural-language request, or the request text itself",
    "",
    "Options:",
    "      --model <MODEL>          LLM model to use [default: gemini/gemini-2.5-flash]",
    "  -x, --execute                Execute the generated code even when --output is given",
    "  -o, --output <OUTPUT>        Save generated code to a file",
    "      --dry-run                Show generated code without executing",
    "  -v, --verbose                Verbose output",
    "      --cache-ttl <CACHE_TTL>  Cache time-to-live in seconds (0 for infinite, -1 to " ++
      "disable caching for this call) [default: 0]",
    "      --no-cache               Disable caching for this call",
    "  -h, --help                   Print help",
    "  -V, --version                Print version",
    "",
    "Examples:",
    "  llmexec \"say hello\"",
    "  llmexec --model openai/gpt-4.1 --execute script.llm",
    "  llmexec --dry-run script.llm",
    "  llmexec --model anthropic/claude-sonnet-4-20250514 -o rename.py script.llm",
    "",
    "Scripts can start with `#!/usr/bin/env llmexec` and be run directly.",
    "",
    "Environment variables:",
    "  GEMINI_API_KEY / GOOGLE_API_KEY   Gemini models (gemini/...)",
    "  OPENAI_API_KEY                    OpenAI models (openai/..., gpt-*)",
    "  ANTHROPIC_API_KEY                 Anthropic models (anthropic/..., claude-*)",
    "  OPENROUTER_API_KEY                OpenRouter models (openrouter/...)",
    "  LLMEXEC_MODEL                     Default model",
    "  LLMEXEC_PYTHON                    Interpreter for generated code",
    "  LLMEXEC_CACHE_DIR                 Cache directory (./.llmexec-cache wins if present)",
    "  LLMEXEC_TEMP_DIR                  Directory for temporary generated scripts"]

def helpText : String := String.join (helpLines.map (· ++ "\n"))

/-- What is said about a command line that cannot be read. -/
def usageText (e : UsageError) : String :=
  "error: " ++ e.message ++ "\n\nFor more information, try '--help'.\n"

end PromptRunner.CommandLine
