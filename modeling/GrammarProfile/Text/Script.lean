import GrammarProfile.Text.Runs

/-!
The script of every character, the scripts that use it, and the names by which scripts are known.
-/
namespace GrammarProfile.Text

def scriptRuns : Runs := .ofText [
  "65Zyyy26Latn6Zyyy26Latn47Zyyy1Latn15Zyyy1Latn5Zyyy23Latn1Zyyy31Latn1Zyyy449Latn39Zyyy5Latn",
  "5Zyyy2Bopo20Zyyy112Zinh4Grek1Zyyy3Grek2Zzzz4Grek1Zyyy1Grek4Zzzz1Grek1Zyyy1Grek1Zyyy3Grek",
  "1Zzzz1Grek1Zzzz20Grek1Zzzz63Grek14Copt16Grek133Cyrl2Zinh169Cyrl1Zzzz38Armn2Zzzz50Armn2Zzzz",
  "3Armn1Zzzz55Hebr8Zzzz27Hebr4Zzzz6Hebr11Zzzz5Arab1Zyyy6Arab1Zyyy14Arab1Zyyy3Arab1Zyyy32Arab",
  "1Zyyy10Arab11Zinh26Arab1Zinh108Arab1Zyyy34Arab14Syrc1Zzzz60Syrc2Zzzz3Syrc48Arab50Thaa14Zzzz",
  "59Nkoo2Zzzz3Nkoo46Samr2Zzzz15Samr1Zzzz28Mand2Zzzz1Mand1Zzzz11Syrc5Zzzz31Arab1Zzzz2Arab6Zzzz",
  "74Arab1Zyyy29Arab81Deva4Zinh15Deva2Zyyy26Deva4Beng1Zzzz8Beng2Zzzz2Beng2Zzzz22Beng1Zzzz7Beng",
  "1Zzzz1Beng3Zzzz4Beng2Zzzz9Beng2Zzzz2Beng2Zzzz4Beng8Zzzz1Beng4Zzzz2Beng1Zzzz5Beng2Zzzz25Beng",
  "2Zzzz3Guru1Zzzz6Guru4Zzzz2Guru2Zzzz22Guru1Zzzz7Guru1Zzzz2Guru1Zzzz2Guru1Zzzz2Guru2Zzzz1Guru",
  "1Zzzz5Guru4Zzzz2Guru2Zzzz3Guru3Zzzz1Guru7Zzzz4Guru1Zzzz1Guru7Zzzz17Guru10Zzzz3Gujr1Zzzz",
  "9Gujr1Zzzz3Gujr1Zzzz22Gujr1Zzzz7Gujr1Zzzz2Gujr1Zzzz5Gujr2Zzzz10Gujr1Zzzz3Gujr1Zzzz3Gujr",
  "2Zzzz1Gujr15Zzzz4Gujr2Zzzz12Gujr7Zzzz7Gujr1Zzzz3Orya1Zzzz8Orya2Zzzz2Orya2Zzzz22Orya1Zzzz",
  "7Orya1Zzzz2Orya1Zzzz5Orya2Zzzz9Orya2Zzzz2Orya2Zzzz3Orya7Zzzz3Orya4Zzzz2Orya1Zzzz5Orya2Zzzz",
  "18Orya10Zzzz2Taml1Zzzz6Taml3Zzzz3Taml1Zzzz4Taml3Zzzz2Taml1Zzzz1Taml1Zzzz2Taml3Zzzz2Taml",
  "3Zzzz3Taml3Zzzz12Taml4Zzzz5Taml3Zzzz3Taml1Zzzz4Taml2Zzzz1Taml6Zzzz1Taml14Zzzz21Taml5Zzzz",
  "13Telu1Zzzz3Telu1Zzzz23Telu1Zzzz16Telu2Zzzz9Telu1Zzzz3Telu1Zzzz4Telu7Zzzz2Telu1Zzzz3Telu",
  "2Zzzz1Telu2Zzzz4Telu2Zzzz10Telu7Zzzz9Telu13Knda1Zzzz3Knda1Zzzz23Knda1Zzzz10Knda1Zzzz5Knda",
  "2Zzzz9Knda1Zzzz3Knda1Zzzz4Knda7Zzzz2Knda6Zzzz2Knda1Zzzz4Knda2Zzzz10Knda1Zzzz3Knda12Zzzz",
  "13Mlym1Zzzz3Mlym1Zzzz51Mlym1Zzzz3Mlym1Zzzz6Mlym4Zzzz16Mlym2Zzzz26Mlym1Zzzz3Sinh1Zzzz18Sinh",
  "3Zzzz24Sinh1Zzzz9Sinh1Zzzz1Sinh2Zzzz7Sinh3Zzzz1Sinh4Zzzz6Sinh1Zzzz1Sinh1Zzzz8Sinh6Zzzz",
  "10Sinh2Zzzz3Sinh12Zzzz58Thai4Zzzz1Zyyy28Thai37Zzzz2Laoo1Zzzz1Laoo1Zzzz5Laoo1Zzzz24Laoo1Zzzz",
  "1Laoo1Zzzz23Laoo2Zzzz5Laoo1Zzzz1Laoo1Zzzz7Laoo1Zzzz10Laoo2Zzzz4Laoo32Zzzz72Tibt1Zzzz36Tibt",
  "4Zzzz39Tibt1Zzzz36Tibt1Zzzz15Tibt1Zzzz7Tibt4Zyyy2Tibt37Zzzz160Mymr38Geor1Zzzz1Geor5Zzzz",
  "1Geor2Zzzz43Geor1Zyyy4Geor256Hang73Ethi1Zzzz4Ethi2Zzzz7Ethi1Zzzz1Ethi1Zzzz4Ethi2Zzzz41Ethi",
  "1Zzzz4Ethi2Zzzz33Ethi1Zzzz4Ethi2Zzzz7Ethi1Zzzz1Ethi1Zzzz4Ethi2Zzzz15Ethi1Zzzz57Ethi1Zzzz",
  "4Ethi2Zzzz67Ethi2Zzzz32Ethi3Zzzz26Ethi6Zzzz86Cher2Zzzz6Cher2Zzzz640Cans29Ogam3Zzzz75Runr",
  "3Zyyy11Runr7Zzzz22Tglg9Zzzz1Tglg21Hano2Zyyy9Zzzz20Buhd12Zzzz13Tagb1Zzzz3Tagb1Zzzz2Tagb",
  "12Zzzz94Khmr2Zzzz10Khmr6Zzzz10Khmr6Zzzz2Mong2Zyyy1Mong1Zyyy20Mong6Zzzz89Mong7Zzzz43Mong",
  "5Zzzz70Cans10Zzzz31Limb1Zzzz12Limb4Zzzz12Limb4Zzzz1Limb3Zzzz12Limb30Tale2Zzzz5Tale11Zzzz",
  "44Talu4Zzzz26Talu6Zzzz11Talu3Zzzz2Talu32Khmr28Bugi2Zzzz2Bugi63Lana1Zzzz29Lana2Zzzz11Lana",
  "6Zzzz10Lana6Zzzz14Lana2Zzzz31Zinh49Zzzz77Bali3Zzzz47Bali1Zzzz64Sund52Batk8Zzzz4Batk56Lepc",
  "3Zzzz15Lepc3Zzzz3Lepc48Olck9Cyrl7Zzzz43Geor2Zzzz3Geor8Sund8Zzzz3Zinh1Zyyy13Zinh1Zyyy7Zinh",
  "4Zyyy1Zinh6Zyyy1Zinh3Zyyy2Zinh1Zyyy5Zzzz38Latn5Grek1Cyrl49Latn5Grek4Latn5Grek13Latn1Cyrl",
  "70Latn1Grek64Zinh256Latn22Grek2Zzzz6Grek2Zzzz38Grek2Zzzz6Grek2Zzzz8Grek1Zzzz1Grek1Zzzz1Grek",
  "1Zzzz1Grek1Zzzz31Grek2Zzzz53Grek1Zzzz15Grek1Zzzz14Grek2Zzzz6Grek1Zzzz19Grek2Zzzz3Grek1Zzzz",
  "9Grek1Zzzz12Zyyy2Zinh87Zyyy1Zzzz11Zyyy1Latn2Zzzz11Zyyy1Latn15Zyyy1Zzzz13Latn3Zzzz33Zyyy",
  "15Zzzz33Zinh15Zzzz38Zyyy1Grek3Zyyy2Latn6Zyyy1Latn27Zyyy1Latn17Zyyy41Latn3Zyyy4Zzzz663Zyyy",
  "25Zzzz11Zyyy21Zzzz928Zyyy256Brai628Zyyy2Zzzz32Zyyy1Zzzz105Zyyy96Glag32Latn116Copt5Zzzz7Copt",
  "38Geor1Zzzz1Geor5Zzzz1Geor2Zzzz56Tfng7Zzzz2Tfng14Zzzz1Tfng23Ethi9Zzzz7Ethi1Zzzz7Ethi1Zzzz",
  "7Ethi1Zzzz7Ethi1Zzzz7Ethi1Zzzz7Ethi1Zzzz7Ethi1Zzzz7Ethi1Zzzz32Cyrl94Zyyy34Zzzz26Hani1Zzzz",
  "89Hani12Zzzz214Hani26Zzzz12Zyyy4Zzzz5Zyyy1Hani1Zyyy1Hani25Zyyy9Hani4Zinh2Hang8Zyyy4Hani",
  "4Zyyy1Zzzz86Hira2Zzzz2Zinh2Zyyy3Hira1Zyyy90Kana2Zyyy3Kana5Zzzz43Bopo1Zzzz94Hang1Zzzz16Zyyy",
  "32Bopo36Zyyy12Zzzz16Kana31Hang1Zzzz64Zyyy31Hang81Zyyy47Kana1Zyyy88Kana168Zyyy6592Hani64Zyyy",
  "20992Hani1165Yiii3Zzzz55Yiii9Zzzz48Lisu300Vaii20Zzzz96Cyrl88Bamu8Zzzz34Zyyy102Latn3Zyyy",
  "64Latn5Zzzz2Latn1Zzzz1Latn1Zzzz5Latn24Zzzz14Latn45Sylo3Zzzz10Zyyy6Zzzz56Phag8Zzzz70Saur",
  "8Zzzz12Saur6Zzzz32Deva46Kali1Zyyy1Kali36Rjng11Zzzz1Rjng29Hang3Zzzz78Java1Zzzz1Zyyy10Java",
  "4Zzzz2Java31Mymr1Zzzz55Cham9Zzzz14Cham2Zzzz10Cham2Zzzz4Cham32Mymr67Tavt24Zzzz5Tavt23Mtei",
  "10Zzzz6Ethi2Zzzz6Ethi2Zzzz6Ethi9Zzzz7Ethi1Zzzz7Ethi1Zzzz43Latn1Zyyy9Latn1Grek4Latn2Zyyy",
  "4Zzzz80Cher46Mtei2Zzzz10Mtei6Zzzz11172Hang12Zzzz23Hang4Zzzz49Hang8452Zzzz366Hani2Zzzz",
  "106Hani38Zzzz7Latn12Zzzz5Armn5Zzzz26Hebr1Zzzz5Hebr1Zzzz1Hebr1Zzzz2Hebr1Zzzz2Hebr1Zzzz10Hebr",
  "115Arab16Zzzz363Arab2Zyyy80Arab2Zzzz54Arab7Zzzz1Arab32Zzzz16Arab16Zinh10Zyyy6Zzzz14Zinh",
  "2Cyrl35Zyyy1Zzzz19Zyyy1Zzzz4Zyyy4Zzzz5Arab1Zzzz135Arab2Zzzz1Zyyy1Zzzz32Zyyy26Latn6Zyyy",
  "26Latn11Zyyy10Kana1Zyyy45Kana2Zyyy31Hang3Zzzz6Hang2Zzzz6Hang2Zzzz6Hang2Zzzz3Hang3Zzzz7Zyyy",
  "1Zzzz7Zyyy10Zzzz5Zyyy2Zzzz12Linb1Zzzz26Linb1Zzzz19Linb1Zzzz2Linb1Zzzz15Linb2Zzzz14Linb",
  "34Zzzz123Linb5Zzzz3Zyyy4Zzzz45Zyyy3Zzzz9Zyyy79Grek1Zzzz13Zyyy3Zzzz1Grek47Zzzz45Zyyy1Zinh",
  "130Zzzz29Lyci3Zzzz49Cari15Zzzz1Zinh27Zyyy4Zzzz36Ital9Zzzz3Ital27Goth5Zzzz43Perm5Zzzz30Ugar",
  "1Zzzz1Ugar36Xpeo4Zzzz14Xpeo42Zzzz80Dsrt48Shaw30Osma2Zzzz10Osma6Zzzz36Osge4Zzzz36Osge4Zzzz",
  "40Elba8Zzzz52Aghb11Zzzz1Aghb11Vith1Zzzz15Vith1Zzzz7Vith1Zzzz2Vith1Zzzz11Vith1Zzzz15Vith",
  "1Zzzz7Vith1Zzzz2Vith67Zzzz311Lina9Zzzz22Lina10Zzzz8Lina24Zzzz6Latn1Zzzz42Latn1Zzzz9Latn",
  "69Zzzz6Cprt2Zzzz1Cprt1Zzzz44Cprt1Zzzz2Cprt3Zzzz1Cprt2Zzzz1Cprt22Armi1Zzzz9Armi32Palm31Nbat",
  "8Zzzz9Nbat48Zzzz19Hatr1Zzzz2Hatr5Zzzz5Hatr28Phnx3Zzzz1Phnx26Lydi5Zzzz1Lydi64Zzzz32Mero",
  "24Merc4Zzzz20Merc2Zzzz46Merc4Khar1Zzzz2Khar5Zzzz8Khar1Zzzz3Khar1Zzzz29Khar2Zzzz3Khar4Zzzz",
  "10Khar7Zzzz9Khar7Zzzz32Sarb32Narb32Zzzz39Mani4Zzzz12Mani9Zzzz54Avst3Zzzz7Avst22Prti2Zzzz",
  "8Prti19Phli5Zzzz8Phli18Phlp7Zzzz4Phlp12Zzzz7Phlp80Zzzz73Orkh55Zzzz51Hung13Zzzz51Hung7Zzzz",
  "6Hung40Rohg8Zzzz10Rohg294Zzzz31Arab1Zzzz42Yezi1Zzzz3Yezi2Zzzz2Yezi75Zzzz3Arab40Sogo8Zzzz",
  "42Sogd22Zzzz26Ougr38Zzzz28Chrs20Zzzz23Elym9Zzzz78Brah4Zzzz36Brah9Zzzz1Brah67Kthi10Zzzz1Kthi",
  "2Zzzz25Sora7Zzzz10Sora6Zzzz53Cakm1Zzzz18Cakm8Zzzz39Mahj9Zzzz96Shrd1Zzzz20Sinh11Zzzz18Khoj",
  "1Zzzz47Khoj62Zzzz7Mult1Zzzz1Mult1Zzzz4Mult1Zzzz15Mult1Zzzz11Mult6Zzzz59Sind5Zzzz10Sind6Zzzz",
  "4Gran1Zzzz8Gran2Zzzz2Gran2Zzzz22Gran1Zzzz7Gran1Zzzz2Gran1Zzzz5Gran1Zzzz1Zinh9Gran2Zzzz2Gran",
  "2Zzzz3Gran2Zzzz1Gran6Zzzz1Gran5Zzzz7Gran2Zzzz7Gran3Zzzz5Gran139Zzzz92Newa1Zzzz5Newa30Zzzz",
  "72Tirh8Zzzz10Tirh166Zzzz54Sidd2Zzzz38Sidd34Zzzz69Modi11Zzzz10Modi6Zzzz13Mong19Zzzz58Takr",
  "6Zzzz10Takr54Zzzz27Ahom2Zzzz15Ahom4Zzzz23Ahom185Zzzz60Dogr100Zzzz83Wara12Zzzz1Wara7Diak",
  "2Zzzz1Diak2Zzzz8Diak1Zzzz2Diak1Zzzz30Diak1Zzzz2Diak2Zzzz12Diak9Zzzz10Diak70Zzzz8Nand2Zzzz",
  "46Nand2Zzzz11Nand27Zzzz72Zanb8Zzzz83Soyo13Zzzz16Cans57Pauc7Zzzz10Deva246Zzzz9Bhks1Zzzz",
  "45Bhks1Zzzz14Bhks10Zzzz29Bhks3Zzzz32Marc2Zzzz22Marc1Zzzz14Marc73Zzzz7Gonm1Zzzz2Gonm1Zzzz",
  "44Gonm3Zzzz1Gonm1Zzzz2Gonm1Zzzz9Gonm8Zzzz10Gonm6Zzzz6Gong1Zzzz2Gong1Zzzz37Gong1Zzzz2Gong",
  "1Zzzz6Gong7Zzzz10Gong310Zzzz25Maka7Zzzz17Kawi1Zzzz41Kawi3Zzzz28Kawi86Zzzz1Lisu15Zzzz50Taml",
  "13Zzzz1Taml922Xsux102Zzzz111Xsux1Zzzz5Xsux11Zzzz196Xsux2636Zzzz99Cpmn13Zzzz1110Egyp4010Zzzz",
  "583Hluw8633Zzzz569Bamu7Zzzz31Mroo1Zzzz10Mroo4Zzzz2Mroo79Tnsa1Zzzz10Tnsa6Zzzz30Bass2Zzzz",
  "6Bass10Zzzz70Hmng10Zzzz10Hmng1Zzzz7Hmng1Zzzz21Hmng5Zzzz19Hmng688Zzzz91Medf101Zzzz75Plrd",
  "4Zzzz57Plrd7Zzzz17Plrd64Zzzz1Tang1Nshu2Hani1Kits11Zzzz2Hani14Zzzz6136Tang8Zzzz768Tang",
  "470Kits42Zzzz9Tang8935Zzzz4Kana1Zzzz7Kana1Zzzz2Kana1Zzzz1Kana287Hira3Kana15Zzzz1Hira29Zzzz",
  "3Hira2Zzzz1Kana14Zzzz4Kana8Zzzz396Nshu2308Zzzz107Dupl5Zzzz13Dupl3Zzzz9Dupl7Zzzz10Dupl2Zzzz",
  "4Dupl4Zyyy4700Zzzz46Zinh2Zzzz23Zinh9Zzzz116Zyyy60Zzzz246Zyyy10Zzzz39Zyyy2Zzzz62Zyyy3Zinh",
  "17Zyyy8Zinh2Zyyy7Zinh30Zyyy4Zinh61Zyyy21Zzzz70Grek122Zzzz20Zyyy12Zzzz20Zyyy12Zzzz87Zyyy",
  "9Zzzz25Zyyy135Zzzz85Zyyy1Zzzz71Zyyy1Zzzz2Zyyy2Zzzz1Zyyy2Zzzz2Zyyy2Zzzz4Zyyy1Zzzz12Zyyy1Zzzz",
  "1Zyyy1Zzzz7Zyyy1Zzzz65Zyyy1Zzzz4Zyyy2Zzzz8Zyyy1Zzzz7Zyyy1Zzzz28Zyyy1Zzzz4Zyyy1Zzzz5Zyyy",
  "1Zzzz1Zyyy3Zzzz7Zyyy1Zzzz340Zyyy2Zzzz292Zyyy2Zzzz50Zyyy652Sgnw15Zzzz5Sgnw1Zzzz15Sgnw",
  "1104Zzzz31Latn6Zzzz6Latn213Zzzz7Glag1Zzzz17Glag2Zzzz7Glag1Zzzz2Glag1Zzzz5Glag5Zzzz62Cyrl",
  "33Zzzz1Cyrl112Zzzz45Hmnp3Zzzz14Hmnp2Zzzz10Hmnp4Zzzz2Hmnp320Zzzz31Toto17Zzzz58Wcho5Zzzz1Wcho",
  "464Zzzz42Nagm742Zzzz7Ethi1Zzzz4Ethi1Zzzz2Ethi1Zzzz15Ethi1Zzzz197Mend2Zzzz16Mend41Zzzz76Adlm",
  "4Zzzz10Adlm4Zzzz2Adlm785Zzzz68Zyyy76Zzzz61Zyyy194Zzzz4Arab1Zzzz27Arab1Zzzz2Arab1Zzzz1Arab",
  "2Zzzz1Arab1Zzzz10Arab1Zzzz4Arab1Zzzz1Arab1Zzzz1Arab6Zzzz1Arab4Zzzz1Arab1Zzzz1Arab1Zzzz1Arab",
  "1Zzzz3Arab1Zzzz2Arab1Zzzz1Arab2Zzzz1Arab1Zzzz1Arab1Zzzz1Arab1Zzzz1Arab1Zzzz1Arab1Zzzz2Arab",
  "1Zzzz1Arab2Zzzz4Arab1Zzzz7Arab1Zzzz4Arab1Zzzz4Arab1Zzzz1Arab1Zzzz10Arab1Zzzz17Arab5Zzzz",
  "3Arab1Zzzz5Arab1Zzzz17Arab52Zzzz2Arab270Zzzz44Zyyy4Zzzz100Zyyy12Zzzz15Zyyy2Zzzz15Zyyy1Zzzz",
  "15Zyyy1Zzzz37Zyyy10Zzzz174Zyyy56Zzzz26Zyyy1Hira2Zyyy13Zzzz44Zyyy4Zzzz9Zyyy7Zzzz2Zyyy14Zzzz",
  "6Zyyy154Zzzz984Zyyy4Zzzz17Zyyy3Zzzz13Zyyy3Zzzz119Zyyy4Zzzz95Zyyy6Zzzz12Zyyy4Zzzz1Zyyy15Zzzz",
  "12Zyyy4Zzzz56Zyyy8Zzzz10Zyyy6Zzzz40Zyyy8Zzzz30Zyyy2Zzzz2Zyyy78Zzzz340Zyyy12Zzzz14Zyyy2Zzzz",
  "13Zyyy3Zzzz9Zyyy7Zzzz46Zyyy1Zzzz7Zyyy8Zzzz14Zyyy4Zzzz9Zyyy7Zzzz9Zyyy7Zzzz147Zyyy1Zzzz55Zyyy",
  "37Zzzz10Zyyy1030Zzzz42720Hani32Zzzz4154Hani6Zzzz222Hani2Zzzz5762Hani14Zzzz7473Hani3103Zzzz",
  "542Hani1506Zzzz4939Hani5Zzzz4192Hani711761Zzzz1Zyyy30Zzzz96Zyyy128Zzzz240Zinh196112Zzzz"]

def scriptExtensionRuns : Runs := .ofText [
  "65Zyyy26Latn6Zyyy26Latn47Zyyy1Latn15Zyyy1Latn5Zyyy23Latn1Zyyy31Latn1Zyyy449Latn39Zyyy5Latn",
  "5Zyyy2Bopo20Zyyy66Zinh1Grek2Zinh1Grek29Zinh13Latn4Grek1Zyyy3Grek2Zzzz4Grek1Zyyy1Grek4Zzzz",
  "1Grek1Zyyy1Grek1Zyyy3Grek1Zzzz1Grek1Zzzz20Grek1Zzzz63Grek14Copt16Grek131Cyrl1CyrlPerm",
  "1CyrlGlag2CyrlLatn1CyrlGlag168Cyrl1Zzzz38Armn2Zzzz50Armn2Zzzz3Armn1Zzzz55Hebr8Zzzz27Hebr",
  "4Zzzz6Hebr11Zzzz5Arab1Zyyy6Arab1ArabNkooRohgSyrcThaaYezi14Arab1ArabNkooRohgSyrcThaaYezi",
  "1ArabSyrcThaa2Arab1AdlmArabNkooRohgSyrcThaaYezi32Arab1AdlmArabMandManiOugrPhlpRohgSogdSyrc",
  "10Arab11ArabSyrc10Arab10ArabThaaYezi6Arab1ArabSyrc99Arab1ArabRohg8Arab1Zyyy34Arab14Syrc",
  "1Zzzz60Syrc2Zzzz3Syrc48Arab50Thaa14Zzzz59Nkoo2Zzzz3Nkoo46Samr2Zzzz15Samr1Zzzz28Mand2Zzzz",
  "1Mand1Zzzz11Syrc5Zzzz31Arab1Zzzz2Arab6Zzzz74Arab1Zyyy29Arab81Deva",
  "1BengDevaGranGujrGuruKndaLatnMlymOryaShrdTamlTeluTirh",
  "1BengDevaGranGujrGuruKndaLatnMlymOryaTamlTeluTirh2Zinh15Deva",
  "1BengDevaDogrGongGonmGranGujrGuruKndaMahjMlymNandOryaSindSinhSyloTakrTamlTeluTirh",
  "1BengDevaDogrGongGonmGranGujrGuruKndaLimbMahjMlymNandOryaSindSinhSyloTakrTamlTeluTirh",
  "10DevaDogrKthiMahj16Deva4Beng1Zzzz8Beng2Zzzz2Beng2Zzzz22Beng1Zzzz7Beng1Zzzz1Beng3Zzzz4Beng",
  "2Zzzz9Beng2Zzzz2Beng2Zzzz4Beng8Zzzz1Beng4Zzzz2Beng1Zzzz5Beng2Zzzz10BengCakmSylo15Beng2Zzzz",
  "3Guru1Zzzz6Guru4Zzzz2Guru2Zzzz22Guru1Zzzz7Guru1Zzzz2Guru1Zzzz2Guru1Zzzz2Guru2Zzzz1Guru1Zzzz",
  "5Guru4Zzzz2Guru2Zzzz3Guru3Zzzz1Guru7Zzzz4Guru1Zzzz1Guru7Zzzz10GuruMult7Guru10Zzzz3Gujr1Zzzz",
  "9Gujr1Zzzz3Gujr1Zzzz22Gujr1Zzzz7Gujr1Zzzz2Gujr1Zzzz5Gujr2Zzzz10Gujr1Zzzz3Gujr1Zzzz3Gujr",
  "2Zzzz1Gujr15Zzzz4Gujr2Zzzz10GujrKhoj2Gujr7Zzzz7Gujr1Zzzz3Orya1Zzzz8Orya2Zzzz2Orya2Zzzz",
  "22Orya1Zzzz7Orya1Zzzz2Orya1Zzzz5Orya2Zzzz9Orya2Zzzz2Orya2Zzzz3Orya7Zzzz3Orya4Zzzz2Orya1Zzzz",
  "5Orya2Zzzz18Orya10Zzzz2Taml1Zzzz6Taml3Zzzz3Taml1Zzzz4Taml3Zzzz2Taml1Zzzz1Taml1Zzzz2Taml",
  "3Zzzz2Taml3Zzzz3Taml3Zzzz12Taml4Zzzz5Taml3Zzzz3Taml1Zzzz4Taml2Zzzz1Taml6Zzzz1Taml14Zzzz",
  "14GranTaml7Taml5Zzzz13Telu1Zzzz3Telu1Zzzz23Telu1Zzzz16Telu2Zzzz9Telu1Zzzz3Telu1Zzzz4Telu",
  "7Zzzz2Telu1Zzzz3Telu2Zzzz1Telu2Zzzz4Telu2Zzzz10Telu7Zzzz9Telu13Knda1Zzzz3Knda1Zzzz23Knda",
  "1Zzzz10Knda1Zzzz5Knda2Zzzz9Knda1Zzzz3Knda1Zzzz4Knda7Zzzz2Knda6Zzzz2Knda1Zzzz4Knda2Zzzz",
  "10KndaNand1Zzzz3Knda12Zzzz13Mlym1Zzzz3Mlym1Zzzz51Mlym1Zzzz3Mlym1Zzzz6Mlym4Zzzz16Mlym2Zzzz",
  "26Mlym1Zzzz3Sinh1Zzzz18Sinh3Zzzz24Sinh1Zzzz9Sinh1Zzzz1Sinh2Zzzz7Sinh3Zzzz1Sinh4Zzzz6Sinh",
  "1Zzzz1Sinh1Zzzz8Sinh6Zzzz10Sinh2Zzzz3Sinh12Zzzz58Thai4Zzzz1Zyyy28Thai37Zzzz2Laoo1Zzzz1Laoo",
  "1Zzzz5Laoo1Zzzz24Laoo1Zzzz1Laoo1Zzzz23Laoo2Zzzz5Laoo1Zzzz1Laoo1Zzzz7Laoo1Zzzz10Laoo2Zzzz",
  "4Laoo32Zzzz72Tibt1Zzzz36Tibt4Zzzz39Tibt1Zzzz36Tibt1Zzzz15Tibt1Zzzz7Tibt4Zyyy2Tibt37Zzzz",
  "64Mymr10CakmMymrTale86Mymr38Geor1Zzzz1Geor5Zzzz1Geor2Zzzz43Geor1GeorLatn4Geor256Hang73Ethi",
  "1Zzzz4Ethi2Zzzz7Ethi1Zzzz1Ethi1Zzzz4Ethi2Zzzz41Ethi1Zzzz4Ethi2Zzzz33Ethi1Zzzz4Ethi2Zzzz",
  "7Ethi1Zzzz1Ethi1Zzzz4Ethi2Zzzz15Ethi1Zzzz57Ethi1Zzzz4Ethi2Zzzz67Ethi2Zzzz32Ethi3Zzzz26Ethi",
  "6Zzzz86Cher2Zzzz6Cher2Zzzz640Cans29Ogam3Zzzz75Runr3Zyyy11Runr7Zzzz22Tglg9Zzzz1Tglg21Hano",
  "2BuhdHanoTagbTglg9Zzzz20Buhd12Zzzz13Tagb1Zzzz3Tagb1Zzzz2Tagb12Zzzz94Khmr2Zzzz10Khmr6Zzzz",
  "10Khmr6Zzzz2Mong2MongPhag1Mong1MongPhag20Mong6Zzzz89Mong7Zzzz43Mong5Zzzz70Cans10Zzzz31Limb",
  "1Zzzz12Limb4Zzzz12Limb4Zzzz1Limb3Zzzz12Limb30Tale2Zzzz5Tale11Zzzz44Talu4Zzzz26Talu6Zzzz",
  "11Talu3Zzzz2Talu32Khmr28Bugi2Zzzz2Bugi63Lana1Zzzz29Lana2Zzzz11Lana6Zzzz10Lana6Zzzz14Lana",
  "2Zzzz31Zinh49Zzzz77Bali3Zzzz47Bali1Zzzz64Sund52Batk8Zzzz4Batk56Lepc3Zzzz15Lepc3Zzzz3Lepc",
  "48Olck9Cyrl7Zzzz43Geor2Zzzz3Geor8Sund8Zzzz1BengDevaGranKnda1Deva1BengDevaGranKnda1DevaGran",
  "1Deva2BengDeva1DevaShrd1BengDeva1DevaShrd1DevaKndaMlymOryaTamlTelu1Deva2DevaShrd2Deva",
  "1DevaShrd1BengDeva7Deva1DevaNand1BengDeva2Deva1BengDeva4Deva",
  "1BengDevaGranKndaNandOryaTeluTirh1DevaGran1DevaGranKnda2BengDeva1Beng2DevaGran1Nand5Zzzz",
  "38Latn5Grek1Cyrl49Latn5Grek4Latn5Grek13Latn1Cyrl70Latn3Grek54Zinh1CyrlSyrc1Zinh1Syrc5Zinh",
  "256Latn22Grek2Zzzz6Grek2Zzzz38Grek2Zzzz6Grek2Zzzz8Grek1Zzzz1Grek1Zzzz1Grek1Zzzz1Grek1Zzzz",
  "31Grek2Zzzz53Grek1Zzzz15Grek1Zzzz14Grek2Zzzz6Grek1Zzzz19Grek2Zzzz3Grek1Zzzz9Grek1Zzzz12Zyyy",
  "2Zinh33Zyyy1LatnMong53Zyyy1Zzzz11Zyyy1Latn2Zzzz11Zyyy1Latn15Zyyy1Zzzz13Latn3Zzzz33Zyyy",
  "15Zzzz32Zinh1DevaGranLatn15Zzzz38Zyyy1Grek3Zyyy2Latn6Zyyy1Latn27Zyyy1Latn17Zyyy41Latn3Zyyy",
  "4Zzzz663Zyyy25Zzzz11Zyyy21Zzzz928Zyyy256Brai628Zyyy2Zzzz32Zyyy1Zzzz105Zyyy96Glag32Latn",
  "116Copt5Zzzz7Copt38Geor1Zzzz1Geor5Zzzz1Geor2Zzzz56Tfng7Zzzz2Tfng14Zzzz1Tfng23Ethi9Zzzz7Ethi",
  "1Zzzz7Ethi1Zzzz7Ethi1Zzzz7Ethi1Zzzz7Ethi1Zzzz7Ethi1Zzzz7Ethi1Zzzz7Ethi1Zzzz32Cyrl67Zyyy",
  "1CyrlGlag26Zyyy34Zzzz26Hani1Zzzz89Hani12Zzzz214Hani26Zzzz12Zyyy4Zzzz1Zyyy",
  "2BopoHangHaniHiraKanaYiii1BopoHangHaniHiraKana1Zyyy3Hani10BopoHangHaniHiraKanaYiii1Zyyy",
  "1BopoHangHaniHiraKana8BopoHangHaniHiraKanaYiii4BopoHangHaniHiraKana1Zyyy9Hani4BopoHani2Hang",
  "1BopoHangHaniHiraKana5HiraKana1Zyyy1BopoHangHaniHiraKana4Hani2HaniHiraKana2Hani1Zzzz86Hira",
  "2Zzzz4HiraKana3Hira1HiraKana90Kana1BopoHangHaniHiraKanaYiii1HiraKana3Kana5Zzzz43Bopo1Zzzz",
  "94Hang1Zzzz16Hani32Bopo36Hani12Zzzz16Kana31Hang1Zzzz40Hani24Zyyy31Hang1Zyyy49Hani15Zyyy",
  "12Hani4Zyyy47Kana1Hani88Kana25Hani10Zyyy5Hani96Zyyy31Hani1Zyyy6592Hani64Zyyy20992Hani",
  "1165Yiii3Zzzz55Yiii9Zzzz48Lisu300Vaii20Zzzz47Cyrl1CyrlGlag48Cyrl88Bamu8Zzzz8HaniLatn26Zyyy",
  "102Latn3Zyyy64Latn5Zzzz2Latn1Zzzz1Latn1Zzzz5Latn24Zzzz14Latn45Sylo3Zzzz",
  "3DevaDogrGujrGuruKhojKndaKthiMahjMlymModiNandSindTakrTirh",
  "3DevaDogrGujrGuruKhojKndaKthiMahjModiNandSindTakrTirh",
  "4DevaDogrGujrGuruKhojKthiMahjModiSindTakrTirh6Zzzz56Phag8Zzzz70Saur8Zzzz12Saur6Zzzz17Deva",
  "1BengDeva1Deva1DevaTaml12Deva46Kali1KaliLatnMymr1Kali36Rjng11Zzzz1Rjng29Hang3Zzzz78Java",
  "1Zzzz1BugiJava10Java4Zzzz2Java31Mymr1Zzzz55Cham9Zzzz14Cham2Zzzz10Cham2Zzzz4Cham32Mymr67Tavt",
  "24Zzzz5Tavt23Mtei10Zzzz6Ethi2Zzzz6Ethi2Zzzz6Ethi9Zzzz7Ethi1Zzzz7Ethi1Zzzz43Latn1Zyyy9Latn",
  "1Grek4Latn2Zyyy4Zzzz80Cher46Mtei2Zzzz10Mtei6Zzzz11172Hang12Zzzz23Hang4Zzzz49Hang8452Zzzz",
  "366Hani2Zzzz106Hani38Zzzz7Latn12Zzzz5Armn5Zzzz26Hebr1Zzzz5Hebr1Zzzz1Hebr1Zzzz2Hebr1Zzzz",
  "2Hebr1Zzzz10Hebr115Arab16Zzzz363Arab2ArabNkoo80Arab2Zzzz54Arab7Zzzz1Arab32Zzzz2Arab",
  "1ArabThaa10Arab1ArabThaa2Arab16Zinh10Zyyy6Zzzz14Zinh2Cyrl21Zyyy2BopoHangHaniHiraKana12Zyyy",
  "1Zzzz19Zyyy1Zzzz4Zyyy4Zzzz5Arab1Zzzz135Arab2Zzzz1Zyyy1Zzzz32Zyyy26Latn6Zyyy26Latn6Zyyy",
  "5BopoHangHaniHiraKanaYiii10Kana1HiraKana45Kana2HiraKana31Hang3Zzzz6Hang2Zzzz6Hang2Zzzz6Hang",
  "2Zzzz3Hang3Zzzz7Zyyy1Zzzz7Zyyy10Zzzz5Zyyy2Zzzz12Linb1Zzzz26Linb1Zzzz19Linb1Zzzz2Linb1Zzzz",
  "15Linb2Zzzz14Linb34Zzzz123Linb5Zzzz2CpmnCprtLinb1CprtLinb4Zzzz45CprtLinaLinb3Zzzz9CprtLinb",
  "79Grek1Zzzz13Zyyy3Zzzz1Grek47Zzzz45Zyyy1Zinh130Zzzz29Lyci3Zzzz49Cari15Zzzz28ArabCopt4Zzzz",
  "36Ital9Zzzz3Ital27Goth5Zzzz43Perm5Zzzz30Ugar1Zzzz1Ugar36Xpeo4Zzzz14Xpeo42Zzzz80Dsrt48Shaw",
  "30Osma2Zzzz10Osma6Zzzz36Osge4Zzzz36Osge4Zzzz40Elba8Zzzz52Aghb11Zzzz1Aghb11Vith1Zzzz15Vith",
  "1Zzzz7Vith1Zzzz2Vith1Zzzz11Vith1Zzzz15Vith1Zzzz7Vith1Zzzz2Vith67Zzzz311Lina9Zzzz22Lina",
  "10Zzzz8Lina24Zzzz6Latn1Zzzz42Latn1Zzzz9Latn69Zzzz6Cprt2Zzzz1Cprt1Zzzz44Cprt1Zzzz2Cprt3Zzzz",
  "1Cprt2Zzzz1Cprt22Armi1Zzzz9Armi32Palm31Nbat8Zzzz9Nbat48Zzzz19Hatr1Zzzz2Hatr5Zzzz5Hatr28Phnx",
  "3Zzzz1Phnx26Lydi5Zzzz1Lydi64Zzzz32Mero24Merc4Zzzz20Merc2Zzzz46Merc4Khar1Zzzz2Khar5Zzzz8Khar",
  "1Zzzz3Khar1Zzzz29Khar2Zzzz3Khar4Zzzz10Khar7Zzzz9Khar7Zzzz32Sarb32Narb32Zzzz39Mani4Zzzz7Mani",
  "1ManiOugr4Mani9Zzzz54Avst3Zzzz7Avst22Prti2Zzzz8Prti19Phli5Zzzz8Phli18Phlp7Zzzz4Phlp12Zzzz",
  "7Phlp80Zzzz73Orkh55Zzzz51Hung13Zzzz51Hung7Zzzz6Hung40Rohg8Zzzz10Rohg294Zzzz31Arab1Zzzz",
  "42Yezi1Zzzz3Yezi2Zzzz2Yezi75Zzzz3Arab40Sogo8Zzzz42Sogd22Zzzz26Ougr38Zzzz28Chrs20Zzzz23Elym",
  "9Zzzz78Brah4Zzzz36Brah9Zzzz1Brah67Kthi10Zzzz1Kthi2Zzzz25Sora7Zzzz10Sora6Zzzz53Cakm1Zzzz",
  "18Cakm8Zzzz39Mahj9Zzzz96Shrd1Zzzz20Sinh11Zzzz18Khoj1Zzzz47Khoj62Zzzz7Mult1Zzzz1Mult1Zzzz",
  "4Mult1Zzzz15Mult1Zzzz11Mult6Zzzz59Sind5Zzzz10Sind6Zzzz1Gran1GranTaml1Gran1GranTaml1Zzzz",
  "8Gran2Zzzz2Gran2Zzzz22Gran1Zzzz7Gran1Zzzz2Gran1Zzzz5Gran1Zzzz2GranTaml8Gran2Zzzz2Gran2Zzzz",
  "3Gran2Zzzz1Gran6Zzzz1Gran5Zzzz7Gran2Zzzz7Gran3Zzzz5Gran139Zzzz92Newa1Zzzz5Newa30Zzzz72Tirh",
  "8Zzzz10Tirh166Zzzz54Sidd2Zzzz38Sidd34Zzzz69Modi11Zzzz10Modi6Zzzz13Mong19Zzzz58Takr6Zzzz",
  "10Takr54Zzzz27Ahom2Zzzz15Ahom4Zzzz23Ahom185Zzzz60Dogr100Zzzz83Wara12Zzzz1Wara7Diak2Zzzz",
  "1Diak2Zzzz8Diak1Zzzz2Diak1Zzzz30Diak1Zzzz2Diak2Zzzz12Diak9Zzzz10Diak70Zzzz8Nand2Zzzz46Nand",
  "2Zzzz11Nand27Zzzz72Zanb8Zzzz83Soyo13Zzzz16Cans57Pauc7Zzzz10Deva246Zzzz9Bhks1Zzzz45Bhks1Zzzz",
  "14Bhks10Zzzz29Bhks3Zzzz32Marc2Zzzz22Marc1Zzzz14Marc73Zzzz7Gonm1Zzzz2Gonm1Zzzz44Gonm3Zzzz",
  "1Gonm1Zzzz2Gonm1Zzzz9Gonm8Zzzz10Gonm6Zzzz6Gong1Zzzz2Gong1Zzzz37Gong1Zzzz2Gong1Zzzz6Gong",
  "7Zzzz10Gong310Zzzz25Maka7Zzzz17Kawi1Zzzz41Kawi3Zzzz28Kawi86Zzzz1Lisu15Zzzz16Taml2GranTaml",
  "1Taml1GranTaml30Taml13Zzzz1Taml922Xsux102Zzzz111Xsux1Zzzz5Xsux11Zzzz196Xsux2636Zzzz99Cpmn",
  "13Zzzz1110Egyp4010Zzzz583Hluw8633Zzzz569Bamu7Zzzz31Mroo1Zzzz10Mroo4Zzzz2Mroo79Tnsa1Zzzz",
  "10Tnsa6Zzzz30Bass2Zzzz6Bass10Zzzz70Hmng10Zzzz10Hmng1Zzzz7Hmng1Zzzz21Hmng5Zzzz19Hmng688Zzzz",
  "91Medf101Zzzz75Plrd4Zzzz57Plrd7Zzzz17Plrd64Zzzz1Tang1Nshu2Hani1Kits11Zzzz2Hani14Zzzz",
  "6136Tang8Zzzz768Tang470Kits42Zzzz9Tang8935Zzzz4Kana1Zzzz7Kana1Zzzz2Kana1Zzzz1Kana287Hira",
  "3Kana15Zzzz1Hira29Zzzz3Hira2Zzzz1Kana14Zzzz4Kana8Zzzz396Nshu2308Zzzz107Dupl5Zzzz13Dupl3Zzzz",
  "9Dupl7Zzzz10Dupl2Zzzz8Dupl4700Zzzz46Zinh2Zzzz23Zinh9Zzzz116Zyyy60Zzzz246Zyyy10Zzzz39Zyyy",
  "2Zzzz62Zyyy3Zinh17Zyyy8Zinh2Zyyy7Zinh30Zyyy4Zinh61Zyyy21Zzzz70Grek122Zzzz20Zyyy12Zzzz20Zyyy",
  "12Zzzz87Zyyy9Zzzz18Hani7Zyyy135Zzzz85Zyyy1Zzzz71Zyyy1Zzzz2Zyyy2Zzzz1Zyyy2Zzzz2Zyyy2Zzzz",
  "4Zyyy1Zzzz12Zyyy1Zzzz1Zyyy1Zzzz7Zyyy1Zzzz65Zyyy1Zzzz4Zyyy2Zzzz8Zyyy1Zzzz7Zyyy1Zzzz28Zyyy",
  "1Zzzz4Zyyy1Zzzz5Zyyy1Zzzz1Zyyy3Zzzz7Zyyy1Zzzz340Zyyy2Zzzz292Zyyy2Zzzz50Zyyy652Sgnw15Zzzz",
  "5Sgnw1Zzzz15Sgnw1104Zzzz31Latn6Zzzz6Latn213Zzzz7Glag1Zzzz17Glag2Zzzz7Glag1Zzzz2Glag1Zzzz",
  "5Glag5Zzzz62Cyrl33Zzzz1Cyrl112Zzzz45Hmnp3Zzzz14Hmnp2Zzzz10Hmnp4Zzzz2Hmnp320Zzzz31Toto17Zzzz",
  "58Wcho5Zzzz1Wcho464Zzzz42Nagm742Zzzz7Ethi1Zzzz4Ethi1Zzzz2Ethi1Zzzz15Ethi1Zzzz197Mend2Zzzz",
  "16Mend41Zzzz76Adlm4Zzzz10Adlm4Zzzz2Adlm785Zzzz68Zyyy76Zzzz61Zyyy194Zzzz4Arab1Zzzz27Arab",
  "1Zzzz2Arab1Zzzz1Arab2Zzzz1Arab1Zzzz10Arab1Zzzz4Arab1Zzzz1Arab1Zzzz1Arab6Zzzz1Arab4Zzzz1Arab",
  "1Zzzz1Arab1Zzzz1Arab1Zzzz3Arab1Zzzz2Arab1Zzzz1Arab2Zzzz1Arab1Zzzz1Arab1Zzzz1Arab1Zzzz1Arab",
  "1Zzzz1Arab1Zzzz2Arab1Zzzz1Arab2Zzzz4Arab1Zzzz7Arab1Zzzz4Arab1Zzzz4Arab1Zzzz1Arab1Zzzz10Arab",
  "1Zzzz17Arab5Zzzz3Arab1Zzzz5Arab1Zzzz17Arab52Zzzz2Arab270Zzzz44Zyyy4Zzzz100Zyyy12Zzzz15Zyyy",
  "2Zzzz15Zyyy1Zzzz15Zyyy1Zzzz37Zyyy10Zzzz174Zyyy56Zzzz26Zyyy1Hira2Zyyy13Zzzz44Zyyy4Zzzz9Zyyy",
  "7Zzzz2Hani14Zzzz6Zyyy154Zzzz984Zyyy4Zzzz17Zyyy3Zzzz13Zyyy3Zzzz119Zyyy4Zzzz95Zyyy6Zzzz12Zyyy",
  "4Zzzz1Zyyy15Zzzz12Zyyy4Zzzz56Zyyy8Zzzz10Zyyy6Zzzz40Zyyy8Zzzz30Zyyy2Zzzz2Zyyy78Zzzz340Zyyy",
  "12Zzzz14Zyyy2Zzzz13Zyyy3Zzzz9Zyyy7Zzzz46Zyyy1Zzzz7Zyyy8Zzzz14Zyyy4Zzzz9Zyyy7Zzzz9Zyyy7Zzzz",
  "147Zyyy1Zzzz55Zyyy37Zzzz10Zyyy1030Zzzz42720Hani32Zzzz4154Hani6Zzzz222Hani2Zzzz5762Hani",
  "14Zzzz7473Hani3103Zzzz542Hani1506Zzzz4939Hani5Zzzz4192Hani711761Zzzz1Zyyy30Zzzz96Zyyy",
  "128Zzzz240Zinh196112Zzzz"]

/-- The four-letter code of the script of a character. -/
def script (c : Char) : String := scriptRuns.labelAt c.toNat

/-- The four-letter codes of the scripts that use a character, written one after the other. -/
def scriptExtensions (c : Char) : String := scriptExtensionRuns.labelAt c.toNat

/-- Names of scripts in lower case without separators, with their codes. -/
def scriptNames : List (String × String) := [
  ("adlm", "Adlm"), ("adlam", "Adlm"), ("aghb", "Aghb"), ("caucasianalbanian", "Aghb"),
   ("ahom", "Ahom"), ("arab", "Arab"), ("arabic", "Arab"), ("armi", "Armi"),
   ("imperialaramaic", "Armi"), ("armn", "Armn"), ("armenian", "Armn"), ("avst", "Avst"),
   ("avestan", "Avst"), ("bali", "Bali"), ("balinese", "Bali"), ("bamu", "Bamu"),
   ("bamum", "Bamu"), ("bass", "Bass"), ("bassavah", "Bass"), ("batk", "Batk"),
   ("batak", "Batk"), ("beng", "Beng"), ("bengali", "Beng"), ("bhks", "Bhks"),
   ("bhaiksuki", "Bhks"), ("bopo", "Bopo"), ("bopomofo", "Bopo"), ("brah", "Brah"),
   ("brahmi", "Brah"), ("brai", "Brai"), ("braille", "Brai"), ("bugi", "Bugi"),
   ("buginese", "Bugi"), ("buhd", "Buhd"), ("buhid", "Buhd"), ("cakm", "Cakm"),
   ("chakma", "Cakm"), ("cans", "Cans"), ("canadianaboriginal", "Cans"), ("cari", "Cari"),
   ("carian", "Cari"), ("cham", "Cham"), ("cher", "Cher"), ("cherokee", "Cher"),
   ("chrs", "Chrs"), ("chorasmian", "Chrs"), ("copt", "Copt"), ("coptic", "Copt"),
   ("qaac", "Copt"), ("cpmn", "Cpmn"), ("cyprominoan", "Cpmn"), ("cprt", "Cprt"),
   ("cypriot", "Cprt"), ("cyrl", "Cyrl"), ("cyrillic", "Cyrl"), ("deva", "Deva"),
   ("devanagari", "Deva"), ("diak", "Diak"), ("divesakuru", "Diak"), ("dogr", "Dogr"),
   ("dogra", "Dogr"), ("dsrt", "Dsrt"), ("deseret", "Dsrt"), ("dupl", "Dupl"),
   ("duployan", "Dupl"), ("egyp", "Egyp"), ("egyptianhieroglyphs", "Egyp"), ("elba", "Elba"),
   ("elbasan", "Elba"), ("elym", "Elym"), ("elymaic", "Elym"), ("ethi", "Ethi"),
   ("ethiopic", "Ethi"), ("geor", "Geor"), ("georgian", "Geor"), ("glag", "Glag"),
   ("glagolitic", "Glag"), ("gong", "Gong"), ("gunjalagondi", "Gong"), ("gonm", "Gonm"),
   ("masaramgondi", "Gonm"), ("goth", "Goth"), ("gothic", "Goth"), ("gran", "Gran"),
   ("grantha", "Gran"), ("grek", "Grek"), ("greek", "Grek"), ("gujr", "Gujr"),
   ("gujarati", "Gujr"), ("guru", "Guru"), ("gurmukhi", "Guru"), ("hang", "Hang"),
   ("hangul", "Hang"), ("hani", "Hani"), ("han", "Hani"), ("hano", "Hano"), ("hanunoo", "Hano"),
   ("hatr", "Hatr"), ("hatran", "Hatr"), ("hebr", "Hebr"), ("hebrew", "Hebr"), ("hira", "Hira"),
   ("hiragana", "Hira"), ("hluw", "Hluw"), ("anatolianhieroglyphs", "Hluw"), ("hmng", "Hmng"),
   ("pahawhhmong", "Hmng"), ("hmnp", "Hmnp"), ("nyiakengpuachuehmong", "Hmnp"), ("hung", "Hung"),
   ("oldhungarian", "Hung"), ("ital", "Ital"), ("olditalic", "Ital"), ("java", "Java"),
   ("javanese", "Java"), ("kali", "Kali"), ("kayahli", "Kali"), ("kana", "Kana"),
   ("katakana", "Kana"), ("kawi", "Kawi"), ("khar", "Khar"), ("kharoshthi", "Khar"),
   ("khmr", "Khmr"), ("khmer", "Khmr"), ("khoj", "Khoj"), ("khojki", "Khoj"), ("kits", "Kits"),
   ("khitansmallscript", "Kits"), ("knda", "Knda"), ("kannada", "Knda"), ("kthi", "Kthi"),
   ("kaithi", "Kthi"), ("lana", "Lana"), ("taitham", "Lana"), ("laoo", "Laoo"), ("lao", "Laoo"),
   ("latn", "Latn"), ("latin", "Latn"), ("lepc", "Lepc"), ("lepcha", "Lepc"), ("limb", "Limb"),
   ("limbu", "Limb"), ("lina", "Lina"), ("lineara", "Lina"), ("linb", "Linb"),
   ("linearb", "Linb"), ("lisu", "Lisu"), ("lyci", "Lyci"), ("lycian", "Lyci"), ("lydi", "Lydi"),
   ("lydian", "Lydi"), ("mahj", "Mahj"), ("mahajani", "Mahj"), ("maka", "Maka"),
   ("makasar", "Maka"), ("mand", "Mand"), ("mandaic", "Mand"), ("mani", "Mani"),
   ("manichaean", "Mani"), ("marc", "Marc"), ("marchen", "Marc"), ("medf", "Medf"),
   ("medefaidrin", "Medf"), ("mend", "Mend"), ("mendekikakui", "Mend"), ("merc", "Merc"),
   ("meroiticcursive", "Merc"), ("mero", "Mero"), ("meroitichieroglyphs", "Mero"),
   ("mlym", "Mlym"), ("malayalam", "Mlym"), ("modi", "Modi"), ("mong", "Mong"),
   ("mongolian", "Mong"), ("mroo", "Mroo"), ("mro", "Mroo"), ("mtei", "Mtei"),
   ("meeteimayek", "Mtei"), ("mult", "Mult"), ("multani", "Mult"), ("mymr", "Mymr"),
   ("myanmar", "Mymr"), ("nagm", "Nagm"), ("nagmundari", "Nagm"), ("nand", "Nand"),
   ("nandinagari", "Nand"), ("narb", "Narb"), ("oldnortharabian", "Narb"), ("nbat", "Nbat"),
   ("nabataean", "Nbat"), ("newa", "Newa"), ("nkoo", "Nkoo"), ("nko", "Nkoo"), ("nshu", "Nshu"),
   ("nushu", "Nshu"), ("ogam", "Ogam"), ("ogham", "Ogam"), ("olck", "Olck"), ("olchiki", "Olck"),
   ("orkh", "Orkh"), ("oldturkic", "Orkh"), ("orya", "Orya"), ("oriya", "Orya"),
   ("osge", "Osge"), ("osage", "Osge"), ("osma", "Osma"), ("osmanya", "Osma"), ("ougr", "Ougr"),
   ("olduyghur", "Ougr"), ("palm", "Palm"), ("palmyrene", "Palm"), ("pauc", "Pauc"),
   ("paucinhau", "Pauc"), ("perm", "Perm"), ("oldpermic", "Perm"), ("phag", "Phag"),
   ("phagspa", "Phag"), ("phli", "Phli"), ("inscriptionalpahlavi", "Phli"), ("phlp", "Phlp"),
   ("psalterpahlavi", "Phlp"), ("phnx", "Phnx"), ("phoenician", "Phnx"), ("plrd", "Plrd"),
   ("miao", "Plrd"), ("prti", "Prti"), ("inscriptionalparthian", "Prti"), ("rjng", "Rjng"),
   ("rejang", "Rjng"), ("rohg", "Rohg"), ("hanifirohingya", "Rohg"), ("runr", "Runr"),
   ("runic", "Runr"), ("samr", "Samr"), ("samaritan", "Samr"), ("sarb", "Sarb"),
   ("oldsoutharabian", "Sarb"), ("saur", "Saur"), ("saurashtra", "Saur"), ("sgnw", "Sgnw"),
   ("signwriting", "Sgnw"), ("shaw", "Shaw"), ("shavian", "Shaw"), ("shrd", "Shrd"),
   ("sharada", "Shrd"), ("sidd", "Sidd"), ("siddham", "Sidd"), ("sind", "Sind"),
   ("khudawadi", "Sind"), ("sinh", "Sinh"), ("sinhala", "Sinh"), ("sogd", "Sogd"),
   ("sogdian", "Sogd"), ("sogo", "Sogo"), ("oldsogdian", "Sogo"), ("sora", "Sora"),
   ("sorasompeng", "Sora"), ("soyo", "Soyo"), ("soyombo", "Soyo"), ("sund", "Sund"),
   ("sundanese", "Sund"), ("sylo", "Sylo"), ("sylotinagri", "Sylo"), ("syrc", "Syrc"),
   ("syriac", "Syrc"), ("tagb", "Tagb"), ("tagbanwa", "Tagb"), ("takr", "Takr"),
   ("takri", "Takr"), ("tale", "Tale"), ("taile", "Tale"), ("talu", "Talu"),
   ("newtailue", "Talu"), ("taml", "Taml"), ("tamil", "Taml"), ("tang", "Tang"),
   ("tangut", "Tang"), ("tavt", "Tavt"), ("taiviet", "Tavt"), ("telu", "Telu"),
   ("telugu", "Telu"), ("tfng", "Tfng"), ("tifinagh", "Tfng"), ("tglg", "Tglg"),
   ("tagalog", "Tglg"), ("thaa", "Thaa"), ("thaana", "Thaa"), ("thai", "Thai"), ("tibt", "Tibt"),
   ("tibetan", "Tibt"), ("tirh", "Tirh"), ("tirhuta", "Tirh"), ("tnsa", "Tnsa"),
   ("tangsa", "Tnsa"), ("toto", "Toto"), ("ugar", "Ugar"), ("ugaritic", "Ugar"),
   ("vaii", "Vaii"), ("vai", "Vaii"), ("vith", "Vith"), ("vithkuqi", "Vith"), ("wara", "Wara"),
   ("warangciti", "Wara"), ("wcho", "Wcho"), ("wancho", "Wcho"), ("xpeo", "Xpeo"),
   ("oldpersian", "Xpeo"), ("xsux", "Xsux"), ("cuneiform", "Xsux"), ("yezi", "Yezi"),
   ("yezidi", "Yezi"), ("yiii", "Yiii"), ("yi", "Yiii"), ("zanb", "Zanb"),
   ("zanabazarsquare", "Zanb"), ("zinh", "Zinh"), ("inherited", "Zinh"), ("qaai", "Zinh"),
   ("zyyy", "Zyyy"), ("common", "Zyyy")]

end GrammarProfile.Text
